import PackageLoader.Package.Basic

/-!
The vote on a package name. Each file votes for the name in its clause; names of external test
packages do not count. A name takes the lead when it has strictly more votes than the leader, so
among equals the one that got there first wins.
-/
namespace PackageLoader

/-- Whether a name belongs to an external test package. -/
def isTestName (name : String) : Bool :=
  testSuffix.toList.isSuffixOf name.toList

/-- The votes so far and the name in the lead with its votes. -/
structure NameVote where
  counts : Table String Nat := .empty
  leader? : Option String := none
  lead : Nat := 0

namespace NameVote

/-- The votes for a name. -/
def count (v : NameVote) (name : String) : Nat :=
  (v.counts.get? name).getD 0

/-- `NameVote::vote`: counts one vote. -/
def vote (v : NameVote) (name : String) : NameVote :=
  if isTestName name then v
  else
    let count := v.count name + 1
    let counts := v.counts.insert name count
    if count > v.lead then ⟨counts, some name, count⟩ else { v with counts := counts }

/-- `NameVote::winner`: the winner when the names vote in order. -/
def winner? (names : List String) : Option String :=
  (names.foldl vote {}).leader?

end NameVote

end PackageLoader
