import AqlBuilder.Text.Split
import Mathlib.Data.List.Basic
import Mathlib.Data.Nat.Find
import Mathlib.Tactic.SplitIfs

/-!
# Where the bytes of a text may be cut

A byte below 128 is a character of its own: in the encoding of any other character all bytes are
larger. So where four bytes of a text spell ` as `, these are four characters, the place in front of
them is one between two characters, and so is the place behind them.

- `Text.exists_of_encoded_drop`: a byte below 128 stands between two characters.
- `Text.markAt_bytes_iff`: which bytes of a text spell ` as `.
- `Text.exists_splitAs`: the text is cut at the first of them, and never in the middle of a
  character.
-/

namespace AqlBuilder.Text

section encoding

variable {text : List Char} {b : UInt8} {more : List UInt8} {place : Nat}

/-- The bytes of characters. -/
def encoded (text : List Char) : List UInt8 := text.flatMap String.utf8EncodeChar

theorem encoded_append (front back : List Char) :
    encoded (front ++ back) = encoded front ++ encoded back :=
  List.flatMap_append

/-- The bytes of a text are those of its characters. -/
theorem bytes_eq (text : String) : bytes text = encoded text.toList := by
  have hbytes : text.toByteArray = text.toList.utf8Encode := String.utf8Encode_toList.symm
  rw [bytes, String.toUTF8, hbytes, List.utf8Encode, List.toList_data_toByteArray]
  rfl

theorem bytes_append (front back : String) : bytes (front ++ back) = bytes front ++ bytes back := by
  rw [bytes_eq, bytes_eq, bytes_eq, String.toList_append, encoded_append]

theorem length_bytes (text : String) : (bytes text).length = text.utf8ByteSize := rfl

/-- A byte below 128 is the whole of a character. -/
theorem utf8EncodeChar_of_mem {c : Char} (hb : b ∈ String.utf8EncodeChar c) (hsmall : b < 128) :
    String.utf8EncodeChar c = [b] ∧ c = Char.ofNat b.toNat := by
  have hcode : b.toNat < 128 := UInt8.lt_iff_toNat_lt.mp hsmall
  have hc : c.val.toNat = c.toNat := rfl
  unfold String.utf8EncodeChar at hb ⊢
  dsimp only at hb ⊢
  split_ifs at hb ⊢ with hone
  · rw [List.mem_singleton] at hb
    subst hb
    rw [UInt8.toNat_ofNat', Nat.mod_eq_of_lt (by omega), hc, Char.ofNat_toNat]
    exact ⟨rfl, rfl⟩
  -- every byte of a longer encoding has its highest bit set
  all_goals
    exfalso
    simp only [List.mem_cons, List.not_mem_nil, or_false] at hb
    rcases hb with rfl | rfl | rfl | rfl <;> simp only [UInt8.toNat_ofNat'] at hcode <;> omega

/-- A byte below 128 in front of a text is its first character. -/
theorem exists_of_encoded_cons (h : encoded text = b :: more) (hsmall : b < 128) :
    ∃ rest, text = Char.ofNat b.toNat :: rest ∧ encoded rest = more := by
  cases text with
  | nil => cases h
  | cons c rest =>
      have hcons : String.utf8EncodeChar c ++ encoded rest = b :: more := h
      obtain ⟨b', tail, hchar⟩ := List.exists_cons_of_ne_nil (String.utf8EncodeChar_ne_nil (c := c))
      rw [hchar, List.cons_append] at hcons
      obtain ⟨rfl, hmore⟩ := List.cons.inj hcons
      obtain ⟨hwhole, rfl⟩ := utf8EncodeChar_of_mem (hchar ▸ List.mem_cons_self) hsmall
      rw [hwhole] at hchar
      cases hchar
      exact ⟨rest, rfl, hmore⟩

/-- Bytes below 128 in front of a text are its first characters. -/
theorem exists_of_encoded_append {run : List UInt8} (h : encoded text = run ++ more)
    (hsmall : ∀ b ∈ run, b < 128) :
    ∃ rest, text = run.map (fun b => Char.ofNat b.toNat) ++ rest ∧ encoded rest = more := by
  induction run generalizing text with
  | nil => exact ⟨text, rfl, h⟩
  | cons b run ih =>
      obtain ⟨hb, hrun⟩ := List.forall_mem_cons.mp hsmall
      obtain ⟨rest, rfl, hrest⟩ := exists_of_encoded_cons h hb
      obtain ⟨last, rfl, hmore⟩ := ih hrest hrun
      exact ⟨last, rfl, hmore⟩

/-- A byte below 128 stands between two characters. -/
theorem exists_of_encoded_drop (h : (encoded text).drop place = b :: more) (hsmall : b < 128) :
    ∃ front back, text = front ++ back ∧ (encoded front).length = place ∧
      encoded back = b :: more := by
  induction text generalizing place with
  | nil => exact absurd h (by simp [encoded])
  | cons c rest ih =>
      by_cases hfirst : place = 0
      · subst hfirst
        exact ⟨[], c :: rest, rfl, rfl, h⟩
      have hcons : encoded (c :: rest) = String.utf8EncodeChar c ++ encoded rest := rfl
      rw [hcons, List.drop_append] at h
      by_cases hinside : place < (String.utf8EncodeChar c).length
      · -- a byte below 128 inside of the first character would be all of it
        rw [List.drop_eq_getElem_cons hinside] at h
        obtain ⟨rfl, -⟩ := List.cons.inj h
        obtain ⟨hwhole, -⟩ := utf8EncodeChar_of_mem (List.getElem_mem hinside) hsmall
        rw [hwhole, List.length_singleton] at hinside
        omega
      · rw [List.drop_eq_nil_of_le (by omega), List.nil_append] at h
        obtain ⟨front, back, rfl, hlength, hback⟩ := ih h
        refine ⟨c :: front, back, rfl, ?_, hback⟩
        have hfront : encoded (c :: front) = String.utf8EncodeChar c ++ encoded front := rfl
        rw [hfront, List.length_append]
        omega

end encoding

section marks

/-- The spellings of ` as `. -/
def asMarks : List String := [" as ", " aS ", " As ", " AS "]

/-- Whether the four bytes at a place spell ` as `. -/
def MarkAt (run : List UInt8) (place : Nat) : Prop :=
  ((run.drop place).take 4).map smallByte = [32, 97, 115, 32]

variable {run : List UInt8} {place : Nat} {text : String}

/-- A byte that has become a small letter is that letter or its capital. -/
theorem eq_of_smallByte_eq {b small : UInt8} (capital : UInt8) (hcapital : capital + 32 = small)
    (h : smallByte b = small) : b = small ∨ b = capital ∧ 65 ≤ b := by
  unfold smallByte at h
  split_ifs at h with hbounds
  · exact .inr ⟨(UInt8.add_left_inj 32).mp (h.trans hcapital.symm), hbounds.1⟩
  · exact .inl h

/-- Only a blank becomes a blank in small letters. -/
theorem smallByte_eq_blank {b : UInt8} (h : smallByte b = 32) : b = 32 := by
  rcases eq_of_smallByte_eq 0 rfl h with rfl | ⟨rfl, hbounds⟩
  · rfl
  · exact absurd hbounds (by decide)

/-- Four bytes are like the mark just if there is a mark at their place. -/
theorem alikeBytes_mark_iff : alikeBytes ((run.drop place).take 4) (bytes " as ") = true ↔
    MarkAt run place := by
  rw [alikeBytes, beq_iff_eq, bytes_eq]
  rfl

/-- Behind the place of a mark there are four bytes. -/
theorem MarkAt.le_length (h : MarkAt run place) : place + 4 ≤ run.length := by
  have hlength := congrArg List.length h
  rw [List.length_map, List.length_take, List.length_drop] at hlength
  simp only [List.length_cons, List.length_nil] at hlength
  omega

/-- There is one window for each place where one begins. -/
theorem length_windows (size : Nat) (run : List UInt8) :
    (windows size run).length = run.length + 1 - size := by
  rw [windows, List.length_map, List.length_range]

/-- A window is like the mark just if there is a mark at its place. -/
theorem alikeBytes_getElem_windows {earlier : Nat} (h : earlier < (windows 4 run).length) :
    alikeBytes (windows 4 run)[earlier] (bytes " as ") = true ↔ MarkAt run earlier := by
  simp only [windows, List.getElem_map, List.getElem_range]
  exact alikeBytes_mark_iff

/-- The place that is found is the first one. -/
theorem markIndex?_eq_some_iff : markIndex? run = some place ↔
    MarkAt run place ∧ ∀ earlier < place, ¬MarkAt run earlier := by
  rw [markIndex?, List.findIdx?_eq_some_iff_getElem]
  constructor
  · rintro ⟨hplace, hmark, hfirst⟩
    refine ⟨(alikeBytes_getElem_windows hplace).mp hmark, fun earlier hlt hearlier => ?_⟩
    exact hfirst earlier hlt ((alikeBytes_getElem_windows (Nat.lt_trans hlt hplace)).mpr hearlier)
  · rintro ⟨hmark, hfirst⟩
    have hplace : place < (windows 4 run).length := by
      rw [length_windows]
      have hends := hmark.le_length
      omega
    refine ⟨hplace, (alikeBytes_getElem_windows hplace).mpr hmark, fun earlier hlt hearlier => ?_⟩
    exact hfirst earlier hlt ((alikeBytes_getElem_windows (Nat.lt_trans hlt hplace)).mp hearlier)

/-- No mark is found just if there is none. -/
theorem markIndex?_eq_none_iff : markIndex? run = none ↔ ∀ place, ¬MarkAt run place := by
  constructor
  · intro hnone place hmark
    -- the first of all places would have been found
    classical
    have hex : ∃ place, MarkAt run place := ⟨place, hmark⟩
    have hfound := markIndex?_eq_some_iff.mpr
      ⟨Nat.find_spec hex, fun earlier hlt => Nat.find_min hex hlt⟩
    rw [hnone] at hfound
    cases hfound
  · intro hnone
    cases hfound : markIndex? run with
    | none => rfl
    | some place => exact absurd (markIndex?_eq_some_iff.mp hfound).1 (hnone place)

/-- Where the bytes of characters begin with ` as `, the characters do. -/
theorem exists_mark_of_markAt {chars : List Char} (h : MarkAt (encoded chars) 0) :
    ∃ mark ∈ asMarks, ∃ rest, chars = mark.toList ++ rest := by
  have hfour : ∃ b₀ b₁ b₂ b₃ more, encoded chars = b₀ :: b₁ :: b₂ :: b₃ :: more := by
    have hlength := h.le_length
    match hrun : encoded chars with
    | b₀ :: b₁ :: b₂ :: b₃ :: more => exact ⟨b₀, b₁, b₂, b₃, more, rfl⟩
    | [] | [_] | [_, _] | [_, _, _] =>
        rw [hrun] at hlength
        simp only [List.length_cons, List.length_nil] at hlength
        omega
  obtain ⟨b₀, b₁, b₂, b₃, more, hrun⟩ := hfour
  rw [MarkAt, hrun] at h
  simp only [List.drop_zero, List.take_succ_cons, List.take_zero, List.map_cons, List.map_nil,
    List.cons.injEq, and_true] at h
  obtain ⟨hblank, ha, hs, hend⟩ := h
  have hblank := smallByte_eq_blank hblank
  have hend := smallByte_eq_blank hend
  subst hblank hend
  have hchars : ∀ run : List UInt8, (∀ b ∈ run, b < 128) → encoded chars = run ++ more →
      ∃ rest, chars = run.map (fun b => Char.ofNat b.toNat) ++ rest :=
    fun run hsmall h => (exists_of_encoded_append h hsmall).imp fun _ => And.left
  rcases eq_of_smallByte_eq 65 rfl ha with rfl | ⟨rfl, -⟩ <;>
    rcases eq_of_smallByte_eq 83 rfl hs with rfl | ⟨rfl, -⟩
  · exact ⟨" as ", by decide, hchars [32, 97, 115, 32] (by simp) hrun⟩
  · exact ⟨" aS ", by decide, hchars [32, 97, 83, 32] (by simp) hrun⟩
  · exact ⟨" As ", by decide, hchars [32, 65, 115, 32] (by simp) hrun⟩
  · exact ⟨" AS ", by decide, hchars [32, 65, 83, 32] (by simp) hrun⟩

/-- The mark is four bytes long in every spelling. -/
theorem size_of_mem_asMarks {mark : String} (h : mark ∈ asMarks) : mark.utf8ByteSize = 4 := by
  simp only [asMarks, List.mem_cons, List.not_mem_nil, or_false] at h
  rcases h with rfl | rfl | rfl | rfl <;> rfl

/-- Any of the spellings is found, whatever stands around it. -/
theorem markAt_append {front mark : String} (h : mark ∈ asMarks) (back : String) :
    MarkAt (bytes (front ++ mark ++ back)) front.utf8ByteSize := by
  have hfour : (bytes mark).length = 4 := size_of_mem_asMarks h
  rw [MarkAt, bytes_append, bytes_append, List.append_assoc, ← length_bytes front, List.drop_left,
    ← hfour, List.take_left]
  simp only [asMarks, List.mem_cons, List.not_mem_nil, or_false] at h
  rcases h with rfl | rfl | rfl | rfl <;> rfl

/-- **Where the bytes of a text spell ` as `**: between two parts of the text. -/
theorem markAt_bytes_iff : MarkAt (bytes text) place ↔
    ∃ front, ∃ mark ∈ asMarks, ∃ back, text = front ++ mark ++ back ∧
      front.utf8ByteSize = place := by
  constructor
  · intro h
    rw [bytes_eq] at h
    have hends := h.le_length
    obtain ⟨b, more, hdrop⟩ : ∃ b more, (encoded text.toList).drop place = b :: more :=
      List.exists_cons_of_ne_nil (by simp only [ne_eq, List.drop_eq_nil_iff]; omega)
    have hblank : smallByte b = 32 := by
      rw [MarkAt, hdrop] at h
      exact (List.cons.inj h).1
    obtain rfl := smallByte_eq_blank hblank
    obtain ⟨front, rest, htext, hlength, hrest⟩ := exists_of_encoded_drop hdrop (by decide)
    have hmark : MarkAt (encoded rest) 0 := by
      rw [MarkAt, hdrop, ← hrest] at h
      exact h
    obtain ⟨mark, hmem, back, rfl⟩ := exists_mark_of_markAt hmark
    refine ⟨String.ofList front, mark, hmem, String.ofList back, ?_, ?_⟩
    · apply String.toList_inj.mp
      rw [htext, String.toList_append, String.toList_append, String.toList_ofList,
        String.toList_ofList, List.append_assoc]
    · rw [← length_bytes, bytes_eq, String.toList_ofList, hlength]
  · rintro ⟨front, mark, hmem, back, rfl, rfl⟩
    exact markAt_append hmem back

end marks

section cuts

/-- Behind a part of a text there is a place to cut it. -/
theorem exists_pos_append (front back : String) : ∃ pos : (front ++ back).Pos,
    (front ++ back).pos? ⟨front.utf8ByteSize⟩ = some pos ∧ pos.Splits front back := by
  have hvalid : String.Pos.Raw.IsValid (front ++ back) ⟨front.utf8ByteSize⟩ :=
    String.Pos.Raw.isValid_iff_exists_append.mpr ⟨front, back, rfl, rfl⟩
  refine ⟨(front ++ back).pos ⟨front.utf8ByteSize⟩ hvalid, ?_, rfl, rfl⟩
  have hslice :
    String.Pos.Raw.isValidForSlice (front ++ back).toSlice ⟨front.utf8ByteSize⟩ = true :=
    String.Pos.Raw.isValidForSlice_eq_true_iff.mpr hvalid.toSlice
  rw [String.pos?, String.Slice.pos?, dif_pos hslice]
  rfl

/-- A text is cut in front of the place where its first part ends. -/
theorem textBefore_append (front back : String) :
    textBefore (front ++ back) front.utf8ByteSize = .ok front := by
  obtain ⟨pos, hpos, hsplits⟩ := exists_pos_append front back
  rw [textBefore, hpos]
  exact congrArg Except.ok (pos.splits.eq_left hsplits)

/-- A text is cut behind the place where its first part ends. -/
theorem textFrom_append (front back : String) :
    textFrom (front ++ back) front.utf8ByteSize = .ok back := by
  obtain ⟨pos, hpos, hsplits⟩ := exists_pos_append front back
  rw [textFrom, hpos]
  exact congrArg Except.ok (pos.splits.eq_right hsplits)

/-- Whether ` as ` stands in a text. -/
def HasAs (text : String) : Prop :=
  ∃ front, ∃ mark ∈ asMarks, ∃ back, text = front ++ mark ++ back

/-- Between two parts of a text stands ` as `, and nowhere before. -/
structure FirstAs (text before after : String) : Prop where
  parts : ∃ mark ∈ asMarks, text = before ++ mark ++ after
  first : ∀ front, ∀ mark ∈ asMarks, ∀ back, text = front ++ mark ++ back →
    before.utf8ByteSize ≤ front.utf8ByteSize

variable {text before after : String} {place : Nat}

/-- A text with a first mark has a mark. -/
theorem FirstAs.hasAs (h : FirstAs text before after) : HasAs text := by
  obtain ⟨mark, hmark, htext⟩ := h.parts
  exact ⟨before, mark, hmark, after, htext⟩

/-- Where a mark is found among the bytes, there is the first mark of the text. -/
theorem exists_firstAs_of_markIndex? (h : markIndex? (bytes text) = some place) :
    ∃ before after, FirstAs text before after := by
  obtain ⟨hmark, hfirst⟩ := markIndex?_eq_some_iff.mp h
  obtain ⟨before, mark, hmem, after, htext, rfl⟩ := markAt_bytes_iff.mp hmark
  refine ⟨before, after, ⟨mark, hmem, htext⟩, fun front mark' hmem' back htext' => ?_⟩
  exact Nat.le_of_not_lt fun hlt =>
    hfirst _ hlt (markAt_bytes_iff.mpr ⟨front, mark', hmem', back, htext', rfl⟩)

/-- Without ` as ` there is nothing to cut. -/
theorem splitAs_eq_none (h : ¬HasAs text) : splitAs text = .ok none := by
  have hnone : markIndex? (bytes text) = none := markIndex?_eq_none_iff.mpr fun place hmark => by
    obtain ⟨front, mark, hmem, back, htext, -⟩ := markAt_bytes_iff.mp hmark
    exact h ⟨front, mark, hmem, back, htext⟩
  rw [splitAs, hnone]

/-- In a text with ` as ` there is a first one. -/
theorem HasAs.exists_firstAs (h : HasAs text) : ∃ before after, FirstAs text before after := by
  cases hfound : markIndex? (bytes text) with
  | some place => exact exists_firstAs_of_markIndex? hfound
  | none =>
      obtain ⟨front, mark, hmem, back, htext⟩ := h
      exact absurd (markAt_bytes_iff.mpr ⟨front, mark, hmem, back, htext, rfl⟩)
        (markIndex?_eq_none_iff.mp hfound front.utf8ByteSize)

/-- The text is cut at the first ` as `. -/
theorem FirstAs.splitAs_eq (h : FirstAs text before after) :
    splitAs text = .ok (some (before, after)) := by
  obtain ⟨mark, hmem, rfl⟩ := h.parts
  have hplace : markIndex? (bytes (before ++ mark ++ after)) = some before.utf8ByteSize := by
    refine markIndex?_eq_some_iff.mpr ⟨markAt_append hmem after, fun earlier hlt hmark => ?_⟩
    obtain ⟨front, mark', hmem', back, htext, rfl⟩ := markAt_bytes_iff.mp hmark
    exact absurd (h.first front mark' hmem' back htext) (Nat.not_le_of_lt hlt)
  have hbefore : textBefore (before ++ mark ++ after) before.utf8ByteSize = .ok before := by
    rw [String.append_assoc]
    exact textBefore_append before (mark ++ after)
  have hafter : textFrom (before ++ mark ++ after) (before.utf8ByteSize + 4) = .ok after := by
    rw [← size_of_mem_asMarks hmem, ← String.utf8ByteSize_append]
    exact textFrom_append (before ++ mark) after
  rw [splitAs, hplace]
  dsimp only
  rw [hbefore, hafter]
  rfl

/-- **A text is never cut in the middle of a character**, and just if ` as ` stands in it; then in
front of the first one and behind it. -/
theorem exists_splitAs (text : String) :
    ∃ found, splitAs text = .ok found ∧ (found.isSome ↔ HasAs text) ∧
      ∀ before after, found = some (before, after) ↔ FirstAs text before after := by
  by_cases h : HasAs text
  · obtain ⟨before, after, hfirst⟩ := h.exists_firstAs
    refine ⟨some (before, after), hfirst.splitAs_eq, iff_of_true rfl h, fun front back =>
      ⟨fun heq => ?_, fun hother => ?_⟩⟩
    · cases heq
      exact hfirst
    · exact Except.ok.inj (hfirst.splitAs_eq.symm.trans hother.splitAs_eq)
  · refine ⟨none, splitAs_eq_none h, iff_of_false Bool.false_ne_true h, fun before after =>
      ⟨fun heq => ?_, fun hfirst => absurd hfirst.hasAs h⟩⟩
    cases heq

end cuts

end AqlBuilder.Text
