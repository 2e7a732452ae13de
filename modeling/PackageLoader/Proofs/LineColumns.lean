import Mathlib.Algebra.Group.Nat.Defs
import Mathlib.Data.List.DropRight
import PackageLoader.Proofs.Utf8Text
import PackageLoader.Source.File

/-! Lines and columns. No character but a newline has the byte of one in its encoding, so the table of a
file tells where the lines of its bytes start. The search of the table gives the last line that starts up
to an offset: as many lines have started as there are newlines in front of the offset, and the last of
them starts behind the last newline. Counted from one, both numbers fit into a word unless one of them is
the largest word itself, and then it wraps. -/
namespace PackageLoader.LineColumns
open Text Utf8Text

/-! ## Newlines -/

/-- The byte of a newline. -/
def newline : UInt8 := 10

/-- The offset behind each newline, given the offset of the first byte. -/
def endsFrom : Bytes → Nat → List Nat
  | [], _ => []
  | b :: rest, offset =>
    if b = newline then (offset + 1) :: endsFrom rest (offset + 1) else endsFrom rest (offset + 1)

theorem endsFrom_append (front back : Bytes) (offset : Nat) : endsFrom (front ++ back) offset =
    endsFrom front offset ++ endsFrom back (offset + front.length) := by
  induction front generalizing offset with
  | nil => rfl
  | cons b rest ih =>
    rw [List.cons_append, endsFrom, endsFrom, ih, List.length_cons, Nat.add_assoc,
      Nat.add_comm 1 rest.length]
    split <;> rfl

theorem endsFrom_plain {bytes : Bytes} (plain : newline ∉ bytes) (offset : Nat) :
    endsFrom bytes offset = [] := by
  induction bytes generalizing offset with
  | nil => rfl
  | cons b rest ih =>
    obtain ⟨other, later⟩ := not_or.mp (mt List.mem_cons.mpr plain)
    rw [endsFrom, if_neg (Ne.symm other), ih later]

/-- Only newlines have the byte of a newline. -/
theorem newline_not_mem {c : Char} (other : c ≠ '\n') : newline ∉ String.utf8EncodeChar c := by
  intro member
  by_cases ascii : c.toNat < 0x80
  · rw [encode_ascii ascii, List.mem_singleton] at member
    have value := congrArg UInt8.toNat member
    rw [byte_toNat (by omega)] at value
    exact other (Char.toNat_inj.mp value.symm)
  · exact absurd (encode_beyond (Nat.not_lt.mp ascii) newline member) (by decide)

theorem encode_length (cs : List Char) : (encode cs).length = utf8Length cs := by
  induction cs with
  | nil => rfl
  | cons c rest ih =>
    have first : utf8Length [c] = c.utf8Size := Nat.zero_add _
    rw [encode_cons, List.length_append, ih, String.length_utf8EncodeChar,
      ← List.singleton_append, utf8Length_append, first]

/-- The table of a text is that of its bytes. -/
theorem newlineEnds_eq (cs : List Char) (offset : Nat) :
    newlineEnds cs offset = endsFrom (encode cs) offset := by
  induction cs generalizing offset with
  | nil => rfl
  | cons c rest ih =>
    rw [newlineEnds, encode_cons, endsFrom_append, String.length_utf8EncodeChar]
    split
    · rename_i same
      subst same
      rw [ih]
      rfl
    · rename_i other
      rw [ih, endsFrom_plain (newline_not_mem other), List.nil_append]

theorem endsFrom_bounds {bytes : Bytes} {offset finish : Nat}
    (member : finish ∈ endsFrom bytes offset) : offset < finish ∧ finish ≤ offset + bytes.length := by
  induction bytes generalizing offset with
  | nil => cases member
  | cons b rest ih =>
    have later (member : finish ∈ endsFrom rest (offset + 1)) :
        offset < finish ∧ finish ≤ offset + (rest.length + 1) := by
      have bounds := ih member
      omega
    rw [endsFrom] at member
    rw [List.length_cons]
    split at member
    · rcases List.mem_cons.mp member with rfl | member
      · omega
      · exact later member
    · exact later member

theorem endsFrom_ascending (bytes : Bytes) (offset : Nat) :
    (endsFrom bytes offset).Pairwise (· < ·) := by
  induction bytes generalizing offset with
  | nil => exact .nil
  | cons b rest ih =>
    rw [endsFrom]
    split
    · exact List.pairwise_cons.mpr ⟨fun finish member => (endsFrom_bounds member).1, ih (offset + 1)⟩
    · exact ih (offset + 1)

/-- There is one entry for each newline. -/
theorem endsFrom_length (bytes : Bytes) (offset : Nat) :
    (endsFrom bytes offset).length = bytes.count newline := by
  induction bytes generalizing offset with
  | nil => rfl
  | cons b rest ih =>
    rw [endsFrom, List.count_cons]
    split <;> simp_all

/-- The entries up to an offset are those of the bytes in front of it. -/
theorem endsFrom_filter (bytes : Bytes) (limit : Nat) :
    (endsFrom bytes 0).filter (· ≤ limit) = endsFrom (bytes.take limit) 0 := by
  have parts : bytes.take limit ++ bytes.drop limit = bytes := List.take_append_drop limit bytes
  have early : (endsFrom (bytes.take limit) 0).filter (· ≤ limit) = endsFrom (bytes.take limit) 0 := by
    refine List.filter_eq_self.mpr fun finish member => decide_eq_true ?_
    have bounds := endsFrom_bounds member
    rw [List.length_take] at bounds
    omega
  have late :
      (endsFrom (bytes.drop limit) (0 + (bytes.take limit).length)).filter (· ≤ limit) = [] := by
    refine List.filter_eq_nil_iff.mpr fun finish member => ?_
    have bounds := endsFrom_bounds member
    rw [List.length_take, List.length_drop] at bounds
    simp only [decide_eq_true_eq]
    omega
  conv_lhs => rw [← parts, endsFrom_append, List.filter_append, early, late, List.append_nil]

/-- The last line starts in front of the bytes behind the last newline. -/
theorem endsFrom_last (bytes : Bytes) :
    (0 :: endsFrom bytes 0).getLastD 0 + (bytes.rtakeWhile (· ≠ newline)).length = bytes.length := by
  induction bytes using List.reverseRecOn with
  | nil => rfl
  | append_singleton bytes b ih =>
    rw [endsFrom_append, List.length_append]
    by_cases same : b = newline
    · subst same
      rw [List.rtakeWhile_concat_neg _ _ _ (by simp)]
      have own : endsFrom [newline] (0 + bytes.length) = [0 + bytes.length + 1] := rfl
      rw [own, ← List.cons_append, List.getLastD_concat, List.length_nil, Nat.zero_add]
      rfl
    · have none : endsFrom [b] (0 + bytes.length) = [] :=
        endsFrom_plain (by simpa using Ne.symm same) _
      rw [List.rtakeWhile_concat_pos _ _ _ (by simpa using same), List.length_append, none,
        List.append_nil]
      omega

/-! ## The last line -/

section LastLine

variable {before more : Bytes}

theorem newline_rtakeWhile (bytes : Bytes) : newline ∉ bytes.rtakeWhile (· ≠ newline) := by
  intro member
  simpa using List.mem_rtakeWhile_imp member

/-- Newlines and bytes behind the last newline are different bytes. -/
theorem count_add_rtakeWhile_le (bytes : Bytes) :
    bytes.count newline + (bytes.rtakeWhile (· ≠ newline)).length ≤ bytes.length := by
  have parts := List.rdropWhile_append_rtakeWhile (p := fun b => decide (b ≠ newline)) (l := bytes)
  have last := List.count_eq_zero.mpr (newline_rtakeWhile bytes)
  have front := List.count_le_length (a := newline) (l := bytes.rdropWhile (· ≠ newline))
  have counts := congrArg (List.count newline) parts
  have lengths := congrArg List.length parts
  rw [List.count_append, last] at counts
  rw [List.length_append] at lengths
  omega

/-- All bytes are on the last line if there is no newline. -/
theorem rtakeWhile_length_iff {bytes : Bytes} :
    newline ∉ bytes ↔ (bytes.rtakeWhile (· ≠ newline)).length = bytes.length := by
  constructor
  · intro none
    have all : ∀ b ∈ bytes, decide (b ≠ newline) = true := fun b member =>
      decide_eq_true fun same => none (same ▸ member)
    rw [List.rtakeWhile_eq_self_iff.mpr all]
  · intro whole
    rw [← (List.rtakeWhile_suffix _ bytes).eq_of_length whole]
    exact newline_rtakeWhile bytes

/-- Bytes that are no newlines make the last line longer. -/
theorem rtakeWhile_append (plain : newline ∉ more) :
    (before ++ more).rtakeWhile (· ≠ newline) = before.rtakeWhile (· ≠ newline) ++ more := by
  have all : ∀ b ∈ more.reverse, decide (b ≠ newline) = true := fun b member =>
    decide_eq_true fun same => plain (same ▸ List.mem_reverse.mp member)
  rw [List.rtakeWhile, List.reverse_append, List.takeWhile_append_of_pos all, List.reverse_append,
    List.reverse_reverse]
  rfl

end LastLine

/-! ## Searching the table -/

/-- What a search for a word in a table in ascending order gives: where the word stands, or the place of
which it would have to be put in front. -/
inductive Searched (table : List UInt32) (word : UInt32) : Except Nat Nat → Prop where
  | found {place : Nat} (here : table[place]? = some word) : Searched table word (.ok place)
  | missing {place : Nat} (inside : place ≤ table.length)
      (below : ∀ entry ∈ table.take place, entry < word)
      (above : ∀ entry ∈ table.drop place, word < entry) : Searched table word (.error place)

section Searching

variable {table : List UInt32} {word : UInt32} {base size : Nat}

/-- A part of the table in which a word can stand: its first entry is not beyond the word, unless it is
the first one of all, and every entry behind the part is. -/
structure Window (table : List UInt32) (word : UInt32) (base size : Nat) : Prop where
  filled : 0 < size
  inside : base + size ≤ table.length
  first : base = 0 ∨ table.getD base 0 ≤ word
  behind : ∀ entry ∈ table.drop (base + size), word < entry

theorem getD_eq (inside : base < table.length) : table.getD base 0 = table[base] := by
  rw [List.getD_eq_getElem?_getD, List.getElem?_eq_getElem inside, Option.getD_some]

/-- Behind an entry of an ascending table there are only larger ones. -/
theorem above_of_entry (ascending : table.Pairwise (· < ·)) (inside : base < table.length) :
    ∀ entry ∈ table.drop (base + 1), table[base] < entry := by
  have parts := ascending.sublist (List.drop_sublist base table)
  rw [List.drop_eq_getElem_cons inside] at parts
  exact (List.pairwise_cons.mp parts).1

/-- In front of an entry of an ascending table there are only smaller ones. -/
theorem below_of_entry (ascending : table.Pairwise (· < ·)) (inside : base < table.length) :
    ∀ entry ∈ table.take base, entry < table[base] := by
  intro entry early
  rw [← List.take_append_drop base table, List.pairwise_append] at ascending
  refine ascending.2.2 entry early _ ?_
  rw [List.drop_eq_getElem_cons inside]
  exact List.mem_cons_self ..

/-- Halving keeps the part in which the word can stand, down to one entry. -/
theorem narrow_keeps (ascending : table.Pairwise (· < ·)) (window : Window table word base size) :
    Window table word (narrow table word base size) 1 := by
  fun_induction narrow table word base size with
  | case1 base size more middle ih =>
    obtain ⟨filled, inside, first, behind⟩ := window
    have half : middle = base + size / 2 := rfl
    have within : middle < table.length := by omega
    refine ih ?_
    split
    · rename_i less
      rw [getD_eq within] at less
      refine ⟨by omega, by omega, first, fun entry late => ?_⟩
      -- What was behind the part is still behind it, and so is its upper half now.
      have late : entry ∈ table.drop middle :=
        List.drop_subset_drop_left table (by omega) late
      rw [List.drop_eq_getElem_cons within] at late
      rcases List.mem_cons.mp late with rfl | late
      · exact less
      · exact UInt32.lt_trans less (above_of_entry ascending within entry late)
    · rename_i notLess
      refine ⟨by omega, by omega, Or.inr (UInt32.not_lt.mp notLess), fun entry late => ?_⟩
      refine behind entry (List.drop_subset_drop_left table (by omega) late)
  | case2 base size few =>
    obtain rfl : size = 1 := by have := window.filled; omega
    exact window

/-- The search of a table in ascending order finds a word if it is there. -/
theorem search_searched (ascending : table.Pairwise (· < ·)) (word : UInt32) :
    Searched table word (search table word) := by
  unfold search
  split
  · rename_i none
    rw [List.isEmpty_iff] at none
    subst none
    exact .missing (Nat.le_refl _) (by simp) (by simp)
  · rename_i some
    have filled : 0 < table.length := List.length_pos_iff.mpr (by simpa using some)
    have whole : Window table word 0 table.length :=
      ⟨filled, by omega, Or.inl rfl, by simp⟩
    obtain ⟨-, inside, first, behind⟩ := narrow_keeps ascending whole
    generalize narrow table word 0 table.length = base at inside first behind ⊢
    have within : base < table.length := by omega
    simp only
    rw [getD_eq within] at first ⊢
    split
    · rename_i same
      exact .found (by rw [List.getElem?_eq_getElem within, same])
    · rename_i other
      split
      · rename_i less
        refine .missing inside (fun entry early => ?_) behind
        rw [List.take_add_one, List.getElem?_eq_getElem within, Option.toList_some,
          List.mem_append, List.mem_singleton] at early
        rcases early with early | rfl
        · exact UInt32.lt_trans (below_of_entry ascending within entry early) less
        · exact less
      · rename_i notLess
        have larger : word < table[base] :=
          UInt32.lt_of_le_of_ne (UInt32.not_lt.mp notLess) (Ne.symm other)
        obtain rfl : base = 0 := first.resolve_right (UInt32.not_le.mpr larger)
        refine .missing (Nat.zero_le _) (by simp) fun entry late => ?_
        rw [List.drop_eq_getElem_cons within] at late
        rcases List.mem_cons.mp late with rfl | late
        · exact larger
        · exact UInt32.lt_trans larger (above_of_entry ascending within entry late)

end Searching

/-! ## Places -/

section Places

variable {file : SourceFile} {pos : BytePos}

/-- The offset of a position in the bytes of a text. A position beyond them counts as their end. -/
def offsetIn (file : SourceFile) (pos : BytePos) : Nat :=
  min pos.toNat (utf8Bytes file.text).length

/-- The bytes in front of a position. -/
def bytesBefore (file : SourceFile) (pos : BytePos) : Bytes :=
  (utf8Bytes file.text).take (offsetIn file pos)

/-- The bytes in front of a position and behind the last newline there. -/
def lastLine (file : SourceFile) (pos : BytePos) : Bytes :=
  (bytesBefore file pos).rtakeWhile (· ≠ newline)

theorem bytesBefore_length (file : SourceFile) (pos : BytePos) :
    (bytesBefore file pos).length = offsetIn file pos :=
  List.length_take_of_le (Nat.min_le_right ..)

/-- The word of a position's offset. -/
def wordIn (file : SourceFile) (pos : BytePos) : UInt32 :=
  min pos.word (.ofNat file.size)

variable (counted : (utf8Bytes file.text).length < 2 ^ 32)
include counted

/-- In a text of fewer bytes than there are words, every line starts at a word. -/
theorem lineStarts_toNat :
    file.lineStarts.map UInt32.toNat = 0 :: endsFrom (utf8Bytes file.text) 0 := by
  have table : newlineEnds file.text.toList 0 = endsFrom (utf8Bytes file.text) 0 := newlineEnds_eq ..
  rw [SourceFile.lineStarts, table, List.map_map]
  refine (List.map_congr_left fun start member => ?_).trans (List.map_id _)
  refine UInt32.toNat_ofNat_of_lt' (Nat.lt_of_le_of_lt ?_ counted)
  rcases List.mem_cons.mp member with rfl | later
  · exact Nat.zero_le _
  · have bounds := endsFrom_bounds later
    omega

theorem lineStarts_ascending : file.lineStarts.Pairwise (· < ·) := by
  have offsets : (file.lineStarts.map UInt32.toNat).Pairwise (· < ·) := by
    rw [lineStarts_toNat counted]
    exact List.pairwise_cons.mpr
      ⟨fun start member => (endsFrom_bounds member).1, endsFrom_ascending ..⟩
  exact (List.pairwise_map.mp offsets).imp UInt32.lt_iff_toNat_lt.mpr

theorem wordIn_toNat (pos : BytePos) : (wordIn file pos).toNat = offsetIn file pos := by
  have size : (UInt32.ofNat file.size).toNat = (utf8Bytes file.text).length := by
    rw [SourceFile.size, ← encode_length]
    exact UInt32.toNat_ofNat_of_lt' counted
  rw [wordIn, UInt32.toNat_min, size]
  rfl

/-- The lines that have started up to a position. -/
theorem started_toNat (pos : BytePos) :
    (file.lineStarts.filter (· ≤ wordIn file pos)).map UInt32.toNat =
      0 :: endsFrom (bytesBefore file pos) 0 := by
  have offsets : (file.lineStarts.map UInt32.toNat).filter (· ≤ offsetIn file pos) =
      0 :: endsFrom (bytesBefore file pos) 0 := by
    rw [lineStarts_toNat counted, List.filter_cons_of_pos (by simp), endsFrom_filter, bytesBefore]
  rw [← offsets, List.filter_map]
  refine congrArg _ (List.filter_congr fun start member => ?_)
  rw [Function.comp_apply, ← wordIn_toNat counted]
  exact decide_eq_decide.mpr UInt32.le_iff_toNat_le

omit counted in
/-- The search leads to the last entry that is not beyond the word, if the first one is not. -/
theorem searched_place {table : List UInt32} {word : UInt32} {result : Except Nat Nat}
    (ascending : table.Pairwise (· < ·)) (first : table[0]? = some 0)
    (searched : Searched table word result) :
    SourceFile.lineAt result < table.length ∧
      table.filter (· ≤ word) = table.take (SourceFile.lineAt result + 1) := by
  have parted {place : Nat} (below : ∀ entry ∈ table.take (place + 1), entry ≤ word)
      (above : ∀ entry ∈ table.drop (place + 1), word < entry) :
      table.filter (· ≤ word) = table.take (place + 1) := by
    conv_lhs => rw [← List.take_append_drop (place + 1) table, List.filter_append]
    rw [List.filter_eq_self.mpr fun entry member => decide_eq_true (below entry member),
      List.filter_eq_nil_iff.mpr fun entry member => by
        simpa using above entry member, List.append_nil]
  cases searched with
  | @found place here =>
    obtain ⟨inside, rfl⟩ := List.getElem?_eq_some_iff.mp here
    refine ⟨inside, parted (fun entry early => ?_) (above_of_entry ascending inside)⟩
    rw [SourceFile.lineAt, List.take_add_one, here, Option.toList_some, List.mem_append,
      List.mem_singleton] at early
    rcases early with early | rfl
    · exact UInt32.le_of_lt (below_of_entry ascending inside entry early)
    · exact UInt32.le_refl _
  | @missing place inside below above =>
    cases place with
    | zero =>
      have zero := above 0 (List.mem_of_getElem? first)
      exact absurd zero (UInt32.not_lt.mpr (UInt32.zero_le))
    | succ place =>
      exact ⟨inside, parted (fun entry early => UInt32.le_of_lt (below entry early)) above⟩

/-- The line is the number of lines that have started, and the column counts from the start of the last
of them. -/
theorem lineCol_eq (pos : BytePos) : file.lineCol pos =
    ⟨.ofNat (1 + (bytesBefore file pos).count newline), .ofNat (1 + (lastLine file pos).length)⟩ := by
  have ascending := lineStarts_ascending counted
  have started := started_toNat counted pos
  obtain ⟨inside, parted⟩ := searched_place ascending rfl (search_searched ascending (wordIn file pos))
  have reached := wordIn_toNat counted pos
  simp only [SourceFile.lineCol, ← wordIn.eq_1]
  generalize SourceFile.lineAt (search file.lineStarts (wordIn file pos)) = place at inside parted ⊢
  have lines := congrArg List.length started
  rw [parted, List.length_map, List.length_take_of_le inside, List.length_cons, endsFrom_length]
    at lines
  -- The last line that has started is the one that the search leads to.
  have last : file.lineStarts[place] ∈ file.lineStarts.filter (· ≤ wordIn file pos) := by
    rw [parted, List.take_add_one, List.getElem?_eq_getElem inside]
    exact List.mem_append_right _ (List.mem_singleton_self _)
  have reachedLast : file.lineStarts[place] ≤ wordIn file pos := by
    simpa using (List.mem_filter.mp last).2
  have start : (0 :: endsFrom (bytesBefore file pos) 0).getLastD 0 = file.lineStarts[place].toNat := by
    rw [← started, parted, List.take_add_one, List.getElem?_eq_getElem inside, List.map_append]
    exact List.getLastD_concat ..
  have column := endsFrom_last (bytesBefore file pos)
  rw [start, bytesBefore_length, ← reached] at column
  have line : place + 1 = 1 + (bytesBefore file pos).count newline := by omega
  rw [getD_eq inside, if_pos reachedLast, line, LineCol.mk.injEq]
  refine ⟨rfl, UInt32.toNat_inj.mp ?_⟩
  rw [UInt32.toNat_add, UInt32.toNat_sub_of_le _ _ reachedLast, UInt32.toNat_ofNat', ← column,
    Nat.add_sub_cancel_left, Nat.add_comm 1]
  rfl

theorem lineCol_line (pos : BytePos) :
    (file.lineCol pos).line.toNat = (1 + (bytesBefore file pos).count newline) % 2 ^ 32 := by
  rw [lineCol_eq counted]
  exact UInt32.toNat_ofNat'

theorem lineCol_column (pos : BytePos) :
    (file.lineCol pos).column.toNat = (1 + (lastLine file pos).length) % 2 ^ 32 := by
  rw [lineCol_eq counted]
  exact UInt32.toNat_ofNat'

/-- The position is the largest one, and the bytes in front of it are all newlines or none of them is. -/
def Wraps (file : SourceFile) (pos : BytePos) : Prop :=
  offsetIn file pos = 2 ^ 32 - 1 ∧
    (newline ∉ bytesBefore file pos ∨ ∀ b ∈ bytesBefore file pos, newline = b)

omit counted in
theorem sum_le_offset (file : SourceFile) (pos : BytePos) :
    (bytesBefore file pos).count newline + (lastLine file pos).length ≤ offsetIn file pos :=
  bytesBefore_length file pos ▸ count_add_rtakeWhile_le (bytesBefore file pos)

theorem offset_lt (pos : BytePos) : offsetIn file pos < 2 ^ 32 :=
  wordIn_toNat counted pos ▸ (wordIn file pos).toNat_lt

/-- Both numbers are words, or one of them is the first number that is not. -/
theorem wraps_iff (pos : BytePos) : Wraps file pos ↔
    1 + (bytesBefore file pos).count newline = 2 ^ 32 ∨ 1 + (lastLine file pos).length = 2 ^ 32 := by
  have sum := sum_le_offset file pos
  have offset := offset_lt counted pos
  have length := bytesBefore_length file pos
  have none : newline ∉ bytesBefore file pos ↔ (lastLine file pos).length = offsetIn file pos := by
    rw [← length, lastLine, ← rtakeWhile_length_iff]
  have all : (∀ b ∈ bytesBefore file pos, newline = b) ↔
      (bytesBefore file pos).count newline = offsetIn file pos := by
    rw [← length, List.count_eq_length]
  rw [Wraps, none, all]
  omega

end Places

/-! ## Counting -/

section Counting

variable {file : SourceFile} {p q : BytePos}

/-- At a larger offset more newlines have been counted, or as many and more bytes behind the last. -/
theorem counts_ascending (less : offsetIn file p < offsetIn file q) :
    (bytesBefore file p).count newline < (bytesBefore file q).count newline ∨
      (bytesBefore file p).count newline = (bytesBefore file q).count newline ∧
        (lastLine file p).length < (lastLine file q).length := by
  have parts :
      bytesBefore file p ++ (bytesBefore file q).drop (offsetIn file p) = bytesBefore file q := by
    have front : bytesBefore file p = (bytesBefore file q).take (offsetIn file p) := by
      rw [bytesBefore, bytesBefore, List.take_take, Nat.min_eq_left (Nat.le_of_lt less)]
    rw [front, List.take_append_drop]
  generalize more : (bytesBefore file q).drop (offsetIn file p) = added at parts
  have some : added.length = offsetIn file q - offsetIn file p := by
    rw [← more, List.length_drop, bytesBefore_length]
  rw [lastLine, lastLine, ← parts, List.count_append]
  by_cases line : newline ∈ added
  · have one := List.count_pos_iff.mpr line
    exact Or.inl (by omega)
  · rw [List.count_eq_zero.mpr line, rtakeWhile_append line, List.length_append]
    exact Or.inr ⟨rfl, by omega⟩

variable (counted : (utf8Bytes file.text).length < 2 ^ 32)
include counted

/-- The numbers are those that are counted, exactly where neither of them wraps. -/
theorem lineCol_counted (pos : BytePos) :
    ((file.lineCol pos).line.toNat = 1 + (bytesBefore file pos).count newline ∧
      (file.lineCol pos).column.toNat = 1 + (lastLine file pos).length) ↔ ¬ Wraps file pos := by
  have sum := sum_le_offset file pos
  have offset := offset_lt counted pos
  rw [lineCol_line counted, lineCol_column counted, wraps_iff counted, Nat.mod_eq_iff_lt (by decide),
    Nat.mod_eq_iff_lt (by decide)]
  omega

theorem lineCol_line_le (pos : BytePos) : (file.lineCol pos).line.toNat ≤ file.lineCount := by
  have lines := congrArg List.length (lineStarts_toNat counted)
  rw [List.length_map, List.length_cons, endsFrom_length] at lines
  have less := (List.take_sublist (offsetIn file pos) (utf8Bytes file.text)).count_le newline
  rw [lineCol_line counted, SourceFile.lineCount, lines, Nat.add_comm 1]
  exact (Nat.mod_le _ _).trans (Nat.succ_le_succ less)

/-- A larger offset is on a later line or further along on the same line, unless it wraps: then its line
is the first one of all and comes to less, or its column does. -/
theorem lineCol_ascending (less : offsetIn file p < offsetIn file q) :
    ((file.lineCol p).line < (file.lineCol q).line ∨
      (file.lineCol p).line = (file.lineCol q).line ∧
        (file.lineCol p).column < (file.lineCol q).column) ↔ ¬ Wraps file q := by
  have offset := offset_lt counted q
  have later := counts_ascending less
  have front := sum_le_offset file p
  have back := sum_le_offset file q
  rw [UInt32.lt_iff_toNat_lt, UInt32.lt_iff_toNat_lt, ← UInt32.toNat_inj, lineCol_line counted,
    lineCol_line counted, lineCol_column counted, lineCol_column counted, wraps_iff counted]
  omega

/-- The line and the column tell the offset: a number that wraps is the only one that is zero. -/
theorem lineCol_eq_iff : file.lineCol p = file.lineCol q ↔ offsetIn file p = offsetIn file q := by
  constructor
  · intro same
    by_contra differ
    have apart {p q : BytePos} (same : file.lineCol p = file.lineCol q)
        (less : offsetIn file p < offsetIn file q) : False := by
      have offset := offset_lt counted q
      have later := counts_ascending less
      have front := sum_le_offset file p
      have back := sum_le_offset file q
      have line := congrArg (UInt32.toNat ∘ LineCol.line) same
      have column := congrArg (UInt32.toNat ∘ LineCol.column) same
      simp only [Function.comp_apply, lineCol_line counted, lineCol_column counted] at line column
      omega
    rcases Nat.lt_or_gt_of_ne differ with less | less
    · exact apart same less
    · exact apart same.symm less
  · intro same
    have bytes : bytesBefore file p = bytesBefore file q := by rw [bytesBefore, bytesBefore, same]
    rw [lineCol_eq counted, lineCol_eq counted, lastLine, lastLine, bytes]

end Counting

/-- In a text of fewer bytes than there are words, the line counts the newlines in front of a position and
the column counts the bytes behind the last of them, both from one and modulo the word. Neither wraps
unless the offset is the largest word and all bytes in front of it are newlines or none is. The numbers
tell the offset in any case, and no line lies beyond the last; they are in the order of the offsets unless
the larger one wraps. -/
theorem lineCol_counts_bytes {file : SourceFile} (counted : (utf8Bytes file.text).length < 2 ^ 32) :
    (∀ pos, (file.lineCol pos).line.toNat = (1 + (bytesBefore file pos).count newline) % 2 ^ 32 ∧
      (file.lineCol pos).column.toNat = (1 + (lastLine file pos).length) % 2 ^ 32 ∧
      (((file.lineCol pos).line.toNat = 1 + (bytesBefore file pos).count newline ∧
        (file.lineCol pos).column.toNat = 1 + (lastLine file pos).length) ↔ ¬ Wraps file pos) ∧
      (file.lineCol pos).line.toNat ≤ file.lineCount) ∧
    (∀ p q, file.lineCol p = file.lineCol q ↔ offsetIn file p = offsetIn file q) ∧
    ∀ p q, offsetIn file p < offsetIn file q →
      (((file.lineCol p).line < (file.lineCol q).line ∨
        (file.lineCol p).line = (file.lineCol q).line ∧
          (file.lineCol p).column < (file.lineCol q).column) ↔ ¬ Wraps file q) :=
  ⟨fun pos => ⟨lineCol_line counted pos, lineCol_column counted pos, lineCol_counted counted pos,
    lineCol_line_le counted pos⟩, fun _ _ => lineCol_eq_iff counted, fun _ _ => lineCol_ascending counted⟩

/-- The last byte of the first line and the first byte of the third one. -/
theorem lineCol_counts_sample :
    let file : SourceFile := ⟨⟨"a.gno"⟩, "package a\n\nimport \"b\"\n"⟩
    (utf8Bytes file.text).length < 2 ^ 32 ∧ offsetIn file ⟨9⟩ < offsetIn file ⟨11⟩ ∧
      file.lineCol ⟨9⟩ = ⟨1, 10⟩ ∧ file.lineCol ⟨11⟩ = ⟨3, 1⟩ ∧
      (((file.lineCol ⟨9⟩).line < (file.lineCol ⟨11⟩).line ∨
        (file.lineCol ⟨9⟩).line = (file.lineCol ⟨11⟩).line ∧
          (file.lineCol ⟨9⟩).column < (file.lineCol ⟨11⟩).column) ↔ ¬ Wraps file ⟨11⟩) := by
  intro file
  have counted : (utf8Bytes file.text).length < 2 ^ 32 := by decide +kernel
  have less : offsetIn file ⟨9⟩ < offsetIn file ⟨11⟩ := by decide +kernel
  exact ⟨counted, less, by decide +kernel, by decide +kernel, (lineCol_counts_bytes counted).2.2 _ _ less⟩

/-! ## The largest position -/

/-- A file of one line, of so many letters. -/
def oneLine (size : Nat) : SourceFile :=
  ⟨⟨"a.gno"⟩, .ofList (List.replicate size 'a')⟩

theorem oneLine_bytes (size : Nat) : utf8Bytes (oneLine size).text = List.replicate size 97 := by
  rw [utf8Bytes, oneLine, String.toList_ofList, List.flatMap_replicate]
  exact List.flatten_replicate_singleton

/-- Its line is the first one at every position, and the column is one more than the offset. -/
theorem oneLine_lineCol {size : Nat} (counted : size < 2 ^ 32) (pos : BytePos) :
    offsetIn (oneLine size) pos = min pos.toNat size ∧
      (lastLine (oneLine size) pos).length = offsetIn (oneLine size) pos ∧
      (oneLine size).lineCol pos = ⟨1, .ofNat (1 + offsetIn (oneLine size) pos)⟩ := by
  have bytes := oneLine_bytes size
  have few : (utf8Bytes (oneLine size).text).length < 2 ^ 32 := by rwa [bytes, List.length_replicate]
  have plain : newline ∉ bytesBefore (oneLine size) pos := by
    rw [bytesBefore, bytes]
    intro member
    exact absurd (List.eq_of_mem_replicate (List.mem_of_mem_take member)) (by decide)
  have whole := rtakeWhile_length_iff.mp plain
  rw [bytesBefore_length] at whole
  refine ⟨by rw [offsetIn, bytes, List.length_replicate], whole, ?_⟩
  rw [lineCol_eq few, List.count_eq_zero.mpr plain, lastLine, whole]
  rfl

/-- At the end of a line of the largest length the column wraps. -/
theorem oneLine_wraps {size : Nat} (largest : size = 2 ^ 32 - 1) :
    (utf8Bytes (oneLine size).text).length < 2 ^ 32 ∧
      1 + (lastLine (oneLine size) ⟨4294967295⟩).length = 2 ^ 32 ∧
      offsetIn (oneLine size) ⟨0⟩ < offsetIn (oneLine size) ⟨4294967295⟩ ∧
      (oneLine size).lineCol ⟨0⟩ = ⟨1, 1⟩ ∧ (oneLine size).lineCol ⟨4294967295⟩ = ⟨1, 0⟩ := by
  have counted : size < 2 ^ 32 := by omega
  obtain ⟨start, -, first⟩ := oneLine_lineCol counted ⟨0⟩
  obtain ⟨finish, whole, last⟩ := oneLine_lineCol counted ⟨4294967295⟩
  have start : offsetIn (oneLine size) ⟨0⟩ = 0 := start.trans (Nat.zero_min size)
  have finish : offsetIn (oneLine size) ⟨4294967295⟩ = 2 ^ 32 - 1 :=
    finish.trans (Nat.min_eq_left (Nat.le_of_eq largest.symm))
  rw [start] at first
  rw [finish] at last whole
  refine ⟨?_, by omega, by omega, first, last⟩
  rwa [oneLine_bytes, List.length_replicate]

/-- The column at the end of the longest line is not one more than the bytes in front of it, and the end
comes in front of the start. -/
theorem column_wraps :
    let file := oneLine (2 ^ 32 - 1)
    (utf8Bytes file.text).length < 2 ^ 32 ∧
      1 + (lastLine file ⟨4294967295⟩).length = 2 ^ 32 ∧
      (file.lineCol ⟨4294967295⟩).column.toNat ≠ 1 + (lastLine file ⟨4294967295⟩).length ∧
      offsetIn file ⟨0⟩ < offsetIn file ⟨4294967295⟩ ∧ file.lineCol ⟨0⟩ = ⟨1, 1⟩ ∧
      file.lineCol ⟨4294967295⟩ = ⟨1, 0⟩ := by
  obtain ⟨counted, whole, less, first, last⟩ := oneLine_wraps rfl
  refine ⟨counted, whole, ?_, less, first, last⟩
  rw [whole, last]
  decide

end PackageLoader.LineColumns
