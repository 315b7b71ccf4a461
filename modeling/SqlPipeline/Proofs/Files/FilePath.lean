import Mathlib.Data.List.TakeWhile
import SqlPipeline.Files.FilePath
import SqlPipeline.Proofs.Text.Utf8

/-!
# Paths as bytes

The system splits the bytes of a path, whatever they encode.  A path that is a text is split as a
text here, which comes to the same: slashes and points are single bytes, and no such byte occurs in
what another character is written as.  So the stem of any path is what the bytes of its stem encode,
and a path without a stem is one whose stem is missing or is no text.
-/

namespace SqlPipeline
namespace FilePath

open SqlPipeline.Path

/-- A path is determined by its bytes. -/
theorem toBytes_injective : Function.Injective toBytes := by
  have read : ∀ path : String, Text.ofUtf8? (toBytes path) = some path := fun path =>
    Text.ofUtf8?_eq_some_iff.mpr (Encoding.encode_utf8_eq_ok_iff.mpr rfl)
  intro first second same
  have reads := congrArg Text.ofUtf8? same
  cases first with
  | text path =>
    cases second with
    | text other =>
      rw [read, read] at reads
      rw [Option.some.inj reads]
    | bytes other foreign =>
      rw [read] at reads
      exact absurd (reads.trans foreign) (Option.some_ne_none path)
  | bytes path foreign =>
    cases second with
    | text other =>
      rw [read] at reads
      exact absurd (reads.symm.trans foreign) (Option.some_ne_none other)
    | bytes other _ => simpa [toBytes] using same

/-! ## Texts with a character for each byte -/

/-- The characters with the numbers of the bytes of a character. -/
def spreadChar (c : Char) : List Char :=
  (String.utf8EncodeChar c).map fun byte => Char.ofNat byte.toNat

/-- A text with the characters that have the numbers of its bytes. -/
def spreadText (text : String) : String := String.ofList (text.toList.flatMap spreadChar)

theorem spread_toBytes (path : String) : spread (toBytes path) = spreadText path := by
  rw [spread, toBytes, List.map_flatMap]
  rfl

theorem toNat_ofNat_byte (byte : UInt8) : (Char.ofNat byte.toNat).toNat = byte.toNat := by
  have bound := byte.toNat_lt
  rw [Char.ofNat, dif_pos (.inl (by omega))]
  rfl

theorem gather_spread (bytes : List UInt8) : gather (spread bytes) = bytes := by
  rw [gather, spread, String.toList_ofList, List.map_map]
  refine (List.map_congr_left fun byte _ => ?_).trans (List.map_id bytes)
  rw [Function.comp_apply, toNat_ofNat_byte, UInt8.ofNat_toNat, id]

/-- The bytes of a text are read as that text. -/
theorem ofUtf8?_gather_spreadText (text : String) :
    Text.ofUtf8? (gather (spreadText text)) = some text := by
  rw [← spread_toBytes, gather_spread, Text.ofUtf8?_eq_some_iff, Encoding.encode_utf8_eq_ok_iff]
  rfl

theorem spreadText_injective : Function.Injective spreadText := by
  intro first second same
  have read := ofUtf8?_gather_spreadText first
  rw [same, ofUtf8?_gather_spreadText second] at read
  exact (Option.some.inj read).symm

/-! ## Characters of a single byte -/

variable {c d : Char} {chars : List Char} {path name : String}

theorem spreadChar_of_ascii (ascii : c.toNat < 128) : spreadChar c = [c] := by
  have single : c.utf8Size = 1 := by
    rw [Char.utf8Size_eq_one_iff, UInt32.le_iff_toNat_le]
    exact Nat.le_of_lt_succ ascii
  rw [spreadChar, String.utf8EncodeChar_eq_singleton single, List.map_singleton,
    UInt32.toNat_toUInt8]
  have small : c.toNat < 256 := by omega
  calc
    [Char.ofNat (c.toNat % 256)] = [Char.ofNat c.toNat] := by rw [Nat.mod_eq_of_lt small]
    _ = [c] := by rw [Char.ofNat_toNat]

/-- The bytes of any other character are beyond those. -/
theorem le_of_mem_spreadChar (wide : 128 ≤ c.toNat) (member : d ∈ spreadChar c) :
    128 ≤ d.toNat := by
  obtain ⟨byte, inside, rfl⟩ := List.mem_map.mp member
  rw [toNat_ofNat_byte]
  have wide : 0x7f < c.val.toNat := wide
  simp only [String.utf8EncodeChar, if_neg (Nat.not_le.mpr wide)] at inside
  split at inside
  · simp at inside
    rcases inside with rfl | rfl <;> simp <;> omega
  · split at inside
    · simp at inside
      rcases inside with rfl | rfl | rfl <;> simp <;> omega
    · simp at inside
      rcases inside with rfl | rfl | rfl | rfl <;> simp <;> omega

theorem mem_flatMap_spreadChar_iff (ascii : c.toNat < 128) :
    c ∈ chars.flatMap spreadChar ↔ c ∈ chars := by
  rw [List.mem_flatMap]
  constructor
  · rintro ⟨other, listed, member⟩
    by_cases small : other.toNat < 128
    · rw [spreadChar_of_ascii small, List.mem_singleton] at member
      rwa [member]
    · have beyond := le_of_mem_spreadChar (Nat.le_of_not_lt small) member
      omega
  · intro listed
    exact ⟨c, listed, by rw [spreadChar_of_ascii ascii]; exact List.mem_singleton_self c⟩

theorem spreadText_eq_iff (ascii : name.toList.all (fun c => c.toNat < 128) = true)
    {text : String} :
    spreadText text = name ↔ text = name := by
  have kept : ∀ chars : List Char, (∀ c ∈ chars, c.toNat < 128) →
      chars.flatMap spreadChar = chars := by
    intro chars small
    induction chars with
    | nil => rfl
    | cons c chars ih =>
      obtain ⟨first, later⟩ := List.forall_mem_cons.mp small
      rw [List.flatMap_cons, spreadChar_of_ascii first, ih later]
      rfl
  have same : spreadText name = name := by
    rw [spreadText, kept _ fun c member => of_decide_eq_true (List.all_eq_true.mp ascii c member),
      String.ofList_toList]
  constructor
  · intro spread
    exact spreadText_injective (spread.trans same.symm)
  · rintro rfl
    exact same

/-! ## Splitting -/

theorem splitOnChar_flatMap_spreadChar {separator : Char} (ascii : separator.toNat < 128)
    (chars : List Char) : Text.splitOnChar separator (chars.flatMap spreadChar) =
      (Text.splitOnChar separator chars).map (·.flatMap spreadChar) := by
  by_cases member : separator ∈ chars
  · obtain ⟨front, rest, rfl, absent⟩ := List.eq_append_cons_of_mem member
    rw [List.flatMap_append, List.flatMap_cons, spreadChar_of_ascii ascii, List.singleton_append,
      Text.splitOnChar_append_cons (mt (mem_flatMap_spreadChar_iff ascii).mp absent),
      Text.splitOnChar_append_cons absent, splitOnChar_flatMap_spreadChar ascii rest,
      List.map_cons]
  · rw [Text.splitOnChar_of_not_mem (mt (mem_flatMap_spreadChar_iff ascii).mp member),
      Text.splitOnChar_of_not_mem member, List.map_singleton]
termination_by chars.length

theorem parts_spreadText (path : String) :
    parts (spreadText path) = (parts path).map spreadText := by
  rw [parts, spreadText, String.toList_ofList, splitOnChar_flatMap_spreadChar (by decide), parts,
    List.map_map, List.map_map]
  refine List.map_congr_left fun part _ => ?_
  rw [Function.comp_apply, Function.comp_apply, spreadText, String.toList_ofList]

theorem isTrivial_spreadText (part : String) : isTrivial (spreadText part) = isTrivial part := by
  rw [Bool.eq_iff_iff]
  simp only [isTrivial, Bool.or_eq_true, beq_iff_eq]
  rw [spreadText_eq_iff (by decide), spreadText_eq_iff (by decide)]

theorem isAbsolute_spreadText (path : String) :
    isAbsolute (spreadText path) = isAbsolute path := by
  rw [Bool.eq_iff_iff]
  simp only [isAbsolute, beq_iff_eq, spreadText, String.toList_ofList]
  cases path.toList with
  | nil => rfl
  | cons c chars =>
    rw [List.flatMap_cons, List.head?_cons]
    by_cases ascii : c.toNat < 128
    · rw [spreadChar_of_ascii ascii]
      rfl
    · have beyond := fun d => @le_of_mem_spreadChar c d (Nat.le_of_not_lt ascii)
      cases spelled : spreadChar c with
      | nil => exact absurd (List.map_eq_nil_iff.mp spelled) String.utf8EncodeChar_ne_nil
      | cons d rest =>
        rw [List.cons_append, List.head?_cons]
        have away := beyond d (spelled ▸ List.mem_cons_self)
        constructor
        · intro same
          rw [Option.some.inj same] at away
          exact absurd away (by decide)
        · intro same
          rw [Option.some.inj same] at ascii
          exact absurd (by decide) ascii

theorem trimParts_cons_cons (absolute : Bool) (part next : String) (others : List String) :
    trimParts absolute (part :: next :: others) =
      if isTrivial part then trimParts absolute (next :: others) else part :: next :: others := by
  rw [trimParts]
  simp

theorem trimParts_spreadText (absolute : Bool) (list : List String) :
    trimParts absolute (list.map spreadText) = (trimParts absolute list).map spreadText := by
  have point : ∀ part, spreadText part = "." ↔ part = "." := fun _ => spreadText_eq_iff (by decide)
  induction list with
  | nil => rfl
  | cons part others ih =>
    cases others with
    | nil =>
      by_cases same : part = "."
      · subst same
        cases absolute <;> rfl
      · simp [trimParts, same, point, isTrivial_spreadText]
        split <;> rfl
    | cons next others =>
      rw [List.map_cons] at ih
      rw [List.map_cons, List.map_cons, trimParts_cons_cons, trimParts_cons_cons,
        isTrivial_spreadText, ih]
      split <;> rfl

theorem reversedParts_spreadText (path : String) :
    reversedParts (spreadText path) = (reversedParts path).map spreadText := by
  rw [reversedParts, reversedParts, parts_spreadText, isAbsolute_spreadText,
    ← trimParts_spreadText]
  cases isAbsolute path <;> simp

theorem fileName?_spreadText (path : String) :
    fileName? (spreadText path) = (fileName? path).map spreadText := by
  rw [fileName?, fileName?, reversedParts_spreadText]
  cases reversedParts path with
  | nil => rfl
  | cons last others =>
    have same : ∀ name : String, name.toList.all (fun c => c.toNat < 128) = true →
        (spreadText last == name) = (last == name) := by
      intro name ascii
      rw [Bool.eq_iff_iff, beq_iff_eq, beq_iff_eq]
      exact spreadText_eq_iff ascii
    simp only [List.map_cons]
    rw [same "." (by decide), same ".." (by decide)]
    split <;> rfl

/-! ## Stems -/

/-- A name without a point is its own stem. -/
theorem splitName_of_not_mem (absent : '.' ∉ chars) :
    splitName (String.ofList chars) = (String.ofList chars, none) := by
  have all : chars.reverse.takeWhile (· ≠ '.') = chars.reverse := by
    refine List.takeWhile_eq_self_iff.mpr fun c member => ?_
    exact decide_eq_true fun same => absent (same ▸ List.mem_reverse.mp member)
  simp only [splitName, String.toList_ofList, all, List.reverse_reverse]
  rw [Nat.sub_self, Nat.zero_sub, List.take_zero]
  rfl

/-- The stem of a name ends before its last point, unless nothing is there. -/
theorem splitName_append (absent : '.' ∉ chars) (before : List Char) :
    splitName (String.ofList (before ++ '.' :: chars)) =
      if before.isEmpty then (String.ofList (before ++ '.' :: chars), none)
      else (String.ofList before, some (String.ofList chars)) := by
  have last : (before ++ '.' :: chars).reverse.takeWhile (· ≠ '.') = chars.reverse := by
    rw [List.reverse_append, List.reverse_cons, List.append_assoc, List.singleton_append,
      List.takeWhile_append_of_pos, List.takeWhile_cons_of_neg (by simp), List.append_nil]
    intro c member
    exact decide_eq_true fun same => absent (same ▸ List.mem_reverse.mp member)
  have length : (before ++ '.' :: chars).length - chars.length - 1 = before.length := by
    rw [List.length_append, List.length_cons]
    omega
  simp only [splitName, String.toList_ofList, last, List.reverse_reverse, length, List.take_left]

theorem isEmpty_flatMap_spreadChar (chars : List Char) :
    (chars.flatMap spreadChar).isEmpty = chars.isEmpty := by
  cases chars with
  | nil => rfl
  | cons c chars =>
    have nonempty : spreadChar c ≠ [] := mt List.map_eq_nil_iff.mp String.utf8EncodeChar_ne_nil
    simp [nonempty]

theorem fst_splitName_spreadText (name : String) :
    (splitName (spreadText name)).1 = spreadText (splitName name).1 := by
  have point : ('.').toNat < 128 := by decide
  obtain ⟨chars, rfl⟩ : ∃ chars, name = String.ofList chars := ⟨_, String.ofList_toList.symm⟩
  rw [spreadText, String.toList_ofList]
  by_cases member : '.' ∈ chars
  · obtain ⟨after, before, split, absent⟩ :=
      List.eq_append_cons_of_mem (List.mem_reverse.mpr member)
    have whole : chars = before.reverse ++ '.' :: after.reverse := by
      rw [← List.reverse_reverse chars, split]
      simp
    have absent : '.' ∉ after.reverse := mt List.mem_reverse.mp absent
    have away := mt (mem_flatMap_spreadChar_iff point).mp absent
    rw [whole, List.flatMap_append, List.flatMap_cons, spreadChar_of_ascii point,
      List.singleton_append, splitName_append away, splitName_append absent]
    rw [isEmpty_flatMap_spreadChar]
    split
    · rw [spreadText, String.toList_ofList, List.flatMap_append, List.flatMap_cons,
        spreadChar_of_ascii point, List.singleton_append]
    · rw [spreadText, String.toList_ofList]
  · have away := mt (mem_flatMap_spreadChar_iff point).mp member
    rw [splitName_of_not_mem away, splitName_of_not_mem member, spreadText,
      String.toList_ofList]

theorem fileStem?_spreadText (path : String) :
    Path.fileStem? (spreadText path) = (Path.fileStem? path).map spreadText := by
  rw [Path.fileStem?, Path.fileStem?, fileName?_spreadText]
  cases fileName? path with
  | none => rfl
  | some name => exact congrArg some (fst_splitName_spreadText name)

/-- The stem of a path is what the bytes of its stem encode. -/
theorem fileStem?_eq (path : FilePath) : path.fileStem? = path.stemBytes?.bind Text.ofUtf8? := by
  cases path with
  | text path =>
    rw [stemBytes?, spread_toBytes, fileStem?_spreadText, fileStem?]
    cases Path.fileStem? path with
    | none => rfl
    | some stem =>
      rw [Option.map_some, Option.map_some, Option.bind_some, ofUtf8?_gather_spreadText]
  | bytes path foreign => rfl

theorem fileStem?_eq_some_iff {path : FilePath} {stem : String} :
    path.fileStem? = some stem ↔
      ∃ bytes, path.stemBytes? = some bytes ∧ Encoding.utf8.encode stem = .ok bytes := by
  simp only [fileStem?_eq, Option.bind_eq_some_iff, Text.ofUtf8?_eq_some_iff]

/-- A name may stand below a directory whose name is no text, but not in such a name itself. -/
example :
    let below : FilePath := .bytes [0xFF, 0x2F, 0x61, 0x2E, 0x73, 0x71, 0x6C] (by decide +kernel)
    let within : FilePath := .bytes [0x6D, 0xFF, 0x2E, 0x73, 0x71, 0x6C] (by decide +kernel)
    below.fileStem? = some "a" ∧ within.fileStem? = none ∧ within.shown = "m\uFFFD.sql" := by
  decide +kernel

end FilePath
end SqlPipeline
