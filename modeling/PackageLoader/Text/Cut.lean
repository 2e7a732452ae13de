import PackageLoader.Text.CharClass

/-!
Cutting texts: into lines, and in two at the first place where a pattern stands.
-/
namespace PackageLoader.Text

/-- The lines of a text. A newline ends its line, so no line follows the last newline. -/
def lines : List Char → List (List Char)
  | [] => []
  | c :: rest =>
    if c = '\n' then [] :: lines rest
    else match lines rest with
      | [] => [[c]]
      | line :: more => (c :: line) :: more

/-- `split_once`: the text in front of the first place where a pattern stands, and the text behind
it. -/
def cut? (pattern : List Char) : List Char → Option (List Char × List Char)
  | [] => if pattern.isEmpty then some ([], []) else none
  | c :: rest =>
    if pattern.isPrefixOf (c :: rest) then some ([], (c :: rest).drop pattern.length)
    else (cut? pattern rest).map fun parts => (c :: parts.1, parts.2)

/-- The text in front of the first blank, and the text behind it. -/
def cutAtBlank (cs : List Char) : List Char × List Char :=
  (cs.takeWhile (!isBlank ·), (cs.dropWhile (!isBlank ·)).drop 1)

end PackageLoader.Text
