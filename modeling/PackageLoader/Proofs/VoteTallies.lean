import PackageLoader.Proofs.FileSums

/-! Who wins a vote. The leader changes only when another name has strictly more votes, and a name gets
them one at a time, so the leader is always the name that was the first to have as many votes as it
has now. What is known after some votes is therefore said about the votes themselves (`Elected`), and
one more vote keeps it. -/
namespace PackageLoader.VoteTallies
open FileSums TableLaws

/-! ## Votes and their places -/

/-- Where the vote stands that is the `m`-th for a name, counted from one. -/
def voteAt (names : List String) (name : String) (m : Nat) : Nat :=
  names.idxOfNth name (m - 1)

/-- A name is ahead of all others that count: no name has more votes, and a name with as many got the
last of them later. -/
structure Elected (names : List String) (name : String) : Prop where
  voted : name ∈ names
  counts : isTestName name = false
  most : ∀ other, isTestName other = false → names.count other ≤ names.count name
  first : ∀ other, isTestName other = false → other ≠ name →
    names.count other = names.count name →
      voteAt names name (names.count name) < voteAt names other (names.count name)

/-- Later votes for a name are counted behind those that it has. -/
theorem idxOfNth_append (name : String) (before after : List String) (n : Nat) :
    (before ++ after).idxOfNth name n = if n < before.count name then before.idxOfNth name n
      else before.length + after.idxOfNth name (n - before.count name) := by
  induction before generalizing n with
  | nil => simp
  | cons head before ih =>
    rw [List.cons_append]
    cases n with
    | zero =>
      rw [List.idxOfNth_cons_zero, List.idxOfNth_cons_zero, ih]
      grind
    | succ n =>
      rw [List.idxOfNth_cons_succ, List.idxOfNth_cons_succ, ih, ih]
      grind

section Places

variable {names : List String} {name last : String} {m : Nat}

/-- A vote that was given stays where it is. -/
theorem voteAt_concat (positive : 0 < m) (given : m ≤ names.count name) :
    voteAt (names ++ [last]) name m = voteAt names name m ∧ voteAt names name m < names.length := by
  have within : m - 1 < names.count name := by omega
  unfold voteAt
  rw [idxOfNth_append, if_pos within]
  exact ⟨rfl, List.idxOfNth_lt_length_of_lt_count within⟩

/-- A vote that was not given can only be the next one. -/
theorem length_le_voteAt_concat (missing : names.count name < m) :
    names.length ≤ voteAt (names ++ [last]) name m := by
  have beyond : ¬ m - 1 < names.count name := by omega
  unfold voteAt
  rw [idxOfNth_append, if_neg beyond]
  exact Nat.le_add_right _ _

theorem count_concat_same : (names ++ [name]).count name = names.count name + 1 := by
  rw [List.count_append, List.count_singleton_self]

theorem count_concat_other (different : name ≠ last) :
    (names ++ [last]).count name = names.count name := by
  simp [List.count_append, Ne.symm different]

/-- At most one name is ahead of all others. -/
theorem elected_unique {other : String} (one : Elected names name) (two : Elected names other) :
    name = other := by
  by_contra different
  have same : names.count other = names.count name :=
    Nat.le_antisymm (one.most other two.counts) (two.most name one.counts)
  have before := one.first other two.counts (Ne.symm different) same
  have after := two.first name one.counts different same.symm
  rw [same] at after
  exact Nat.lt_asymm before after

end Places

/-! ## Counting -/

/-- What is known after some votes: they are counted, no name has more than the lead, and the name in
the lead is ahead of all others. -/
structure Tallied (names : List String) (v : NameVote) : Prop where
  counted : ∀ name, isTestName name = false → v.count name = names.count name
  bound : ∀ name, isTestName name = false → names.count name ≤ v.lead
  leader : ∀ name ∈ v.leader?, Elected names name ∧ names.count name = v.lead

section Steps

variable {names : List String} {v : NameVote} {last : String}

theorem tallied_start : Tallied [] {} where
  counted name _ := rfl
  bound name _ := Nat.le_refl _
  leader name leads := by cases leads

theorem count_ignored (ignored : isTestName last = true) {name : String}
    (counts : isTestName name = false) : (names ++ [last]).count name = names.count name := by
  apply count_concat_other
  rintro rfl
  rw [ignored] at counts
  cases counts

/-- A name that does not count changes no place and no number of votes. -/
theorem elected_ignored (ignored : isTestName last = true) {name : String}
    (elected : Elected names name) : Elected (names ++ [last]) name := by
  have positive : 0 < names.count name := List.count_pos_iff.mpr elected.voted
  constructor
  case voted => exact List.mem_append_left _ elected.voted
  case counts => exact elected.counts
  case most =>
    intro rival counts
    rw [count_ignored ignored elected.counts, count_ignored ignored counts]
    exact elected.most rival counts
  case first =>
    intro rival counts different same
    rw [count_ignored ignored elected.counts] at same ⊢
    rw [count_ignored ignored counts] at same
    rw [(voteAt_concat positive (Nat.le_refl _)).1,
      (voteAt_concat positive (Nat.le_of_eq same.symm)).1]
    exact elected.first rival counts different same

/-- A vote that takes its name over the lead puts it ahead of all others. -/
theorem elected_overtakes (counts : isTestName last = false)
    (below : ∀ name, isTestName name = false → names.count name ≤ names.count last) :
    Elected (names ++ [last]) last := by
  constructor
  case voted => exact List.mem_append_right _ (List.mem_singleton_self _)
  case counts => exact counts
  case most =>
    intro rival plain
    have before := below rival plain
    by_cases same : rival = last
    · exact Nat.le_of_eq (by rw [same])
    · rw [count_concat_other same, count_concat_same]
      omega
  case first =>
    intro rival plain different same
    have before := below rival plain
    rw [count_concat_other different, count_concat_same] at same
    omega

/-- A vote that leaves its name behind the leader or level with it, leaves the leader ahead. -/
theorem elected_stays {leader : String} (elected : Elected names leader)
    (behind : names.count last + 1 ≤ names.count leader) : Elected (names ++ [last]) leader := by
  have other : leader ≠ last := by
    rintro rfl
    omega
  have positive : 0 < names.count leader := by omega
  constructor
  case voted => exact List.mem_append_left _ elected.voted
  case counts => exact elected.counts
  case most =>
    intro rival counts
    rw [count_concat_other other]
    by_cases same : rival = last
    · rw [same, count_concat_same]
      exact behind
    · rw [count_concat_other same]
      exact elected.most rival counts
  case first =>
    intro rival counts different level
    rw [count_concat_other other] at level ⊢
    obtain ⟨stays, inside⟩ : voteAt (names ++ [last]) leader (names.count leader) =
        voteAt names leader (names.count leader) ∧
          voteAt names leader (names.count leader) < names.length :=
      voteAt_concat positive (Nat.le_refl _)
    rw [stays]
    by_cases same : rival = last
    · -- The name that drew level got there with this vote, the leader before it.
      subst same
      rw [count_concat_same] at level
      have missing : names.count rival < names.count leader := by omega
      exact Nat.lt_of_lt_of_le inside (length_le_voteAt_concat missing)
    · rw [count_concat_other same] at level
      rw [(voteAt_concat positive (Nat.le_of_eq level.symm)).1]
      exact elected.first rival counts different level

theorem count_vote (counts : isTestName last = false) (name : String) :
    (v.vote last).count name = if name = last then v.count last + 1 else v.count name := by
  have inserted : (v.vote last).counts = v.counts.insert last (v.count last + 1) := by
    unfold NameVote.vote
    simp only [counts, Bool.false_eq_true, ↓reduceIte]
    split <;> rfl
  rw [NameVote.count, inserted, get?_insert]
  simp only [Std.compare_eq_iff_eq]
  split <;> rfl

/-- A vote that does not count leaves everything as it is. -/
theorem tallied_ignored (tallied : Tallied names v) (ignored : isTestName last = true) :
    Tallied (names ++ [last]) (v.vote last) := by
  have kept : v.vote last = v := by rw [NameVote.vote, if_pos ignored]
  rw [kept]
  refine ⟨fun name counts => ?_, fun name counts => ?_, fun name leads => ?_⟩
  · rw [count_ignored ignored counts]
    exact tallied.counted name counts
  · rw [count_ignored ignored counts]
    exact tallied.bound name counts
  · obtain ⟨elected, votes⟩ := tallied.leader name leads
    rw [count_ignored ignored elected.counts]
    exact ⟨elected_ignored ignored elected, votes⟩

theorem counted_vote (tallied : Tallied names v) (counts : isTestName last = false) (name : String)
    (plain : isTestName name = false) : (v.vote last).count name = (names ++ [last]).count name := by
  rw [count_vote counts]
  by_cases same : name = last
  · rw [if_pos same, same, count_concat_same, tallied.counted last counts]
  · rw [if_neg same, count_concat_other same, tallied.counted name plain]

/-- One more vote. -/
theorem tallied_vote (tallied : Tallied names v) (last : String) :
    Tallied (names ++ [last]) (v.vote last) := by
  by_cases ignored : isTestName last = true
  · exact tallied_ignored tallied ignored
  rw [Bool.not_eq_true] at ignored
  have votes := tallied.counted last ignored
  by_cases ahead : v.count last + 1 > v.lead
  · have below (name : String) (plain : isTestName name = false) :
        names.count name ≤ names.count last := by
      have bound := tallied.bound name plain
      omega
    have elected := elected_overtakes ignored below
    have after : (v.vote last).leader? = some last ∧ (v.vote last).lead = v.count last + 1 := by
      simp [NameVote.vote, ignored, ahead]
    rw [votes, ← count_concat_same] at after
    refine ⟨counted_vote tallied ignored, fun name plain => ?_, fun name leads => ?_⟩
    · rw [after.2]
      exact elected.most name plain
    · rw [after.1] at leads
      cases leads
      exact ⟨elected, after.2.symm⟩
  · have after : (v.vote last).leader? = v.leader? ∧ (v.vote last).lead = v.lead := by
      simp [NameVote.vote, ignored, ahead]
    have behind : names.count last + 1 ≤ v.lead := by omega
    refine ⟨counted_vote tallied ignored, fun name plain => ?_, fun name leads => ?_⟩
    · rw [after.2]
      by_cases same : name = last
      · rw [same, count_concat_same]
        exact behind
      · rw [count_concat_other same]
        exact tallied.bound name plain
    · rw [after.1] at leads
      obtain ⟨elected, level⟩ := tallied.leader name leads
      have other : name ≠ last := by
        rintro rfl
        omega
      rw [after.2, count_concat_other other]
      exact ⟨elected_stays elected (level ▸ behind), level⟩

end Steps

/-- All votes. -/
theorem tallied_votes (names : List String) : Tallied names (names.foldl NameVote.vote {}) := by
  induction names using List.reverseRecOn with
  | nil => exact tallied_start
  | append_singleton names last ih =>
    rw [List.foldl_concat]
    exact tallied_vote ih last

/-- A vote has no winner exactly if all names in it carry the test suffix. Otherwise the winner is the
name without it that has the most votes, and among several with as many the one that had them first. -/
theorem winner_first_with_most (names : List String) :
    (NameVote.winner? names = none ↔ ∀ name ∈ names, testSuffix.toList <:+ name.toList) ∧
      ∀ name, NameVote.winner? names = some name ↔ Elected names name := by
  have won (name : String) (winner : NameVote.winner? names = some name) : Elected names name :=
    ((tallied_votes names).leader name winner).1
  refine ⟨?_, fun name => ⟨won name, fun elected => ?_⟩⟩
  · rw [winner_eq_none_iff]
    simp only [isTestName, List.isSuffixOf_iff_suffix]
  · cases winner : NameVote.winner? names with
    | none =>
      have ignored := winner_eq_none_iff.mp winner name elected.voted
      rw [elected.counts] at ignored
      cases ignored
    | some other => rw [elected_unique (won other winner) elected]

/-- The name that drew level came too late. -/
example : NameVote.winner? ["b", "a", "a_test", "a", "b"] = some "a" := by decide +kernel

end PackageLoader.VoteTallies
