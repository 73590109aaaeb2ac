import Mathlib
import PyGridGain.Datatypes.Hashcode

/-! The names of synthesized classes. `_create_type_name` drops characters and changes the
case of others; the type id, which is made of the lower-cased name, sees only what is
dropped. -/

namespace PyGridGain

/-- `capitalize`. The names that it gets have ASCII letters only. -/
def capitalize : PyStr → PyStr
  | [] => []
  | c :: cs => c.toUpper :: cs

/-- `process_delimiter`. -/
def processDelimiter (name : PyStr) (delimiter : Char) : PyStr :=
  ((name.splitOn delimiter).map capitalize).flatten

/-- What `_identifier` does not match. -/
def isNameChar (c : Char) : Bool := c.isAlphanum || c == '_' || c == '.' || c == '+' || c == '$'

/-- What `_ident_start` does not match. -/
def isNameStart (c : Char) : Bool := c.isAlpha || c == '_'

/-- `_create_type_name`. -/
def createTypeName (typeName : PyStr) : PyStr :=
  let typeName := typeName.filter isNameChar
  let typeName := processDelimiter typeName '$'
  let typeName := processDelimiter typeName '+'
  let typeName := processDelimiter typeName '.'
  capitalize (typeName.dropWhile fun c => !isNameStart c)

def isWordChar (c : Char) : Bool := c.isAlphanum || c == '_'

/-- The characters of a type name that its class keeps, up to their case. -/
def keptName (typeName : PyStr) : PyStr :=
  (typeName.filter isWordChar).dropWhile fun c => !isNameStart c

/-- What `str.lower` is documented to do to ASCII letters. -/
class AsciiLower [Python] : Prop where
  lower_ascii : ∀ s : PyStr, (∀ c ∈ s, c.toNat < 128) → Python.lower s = s.map Char.toLower

section Case
variable {s : PyStr} {p : Char → Bool}

theorem lower_capitalize (s : PyStr) : (capitalize s).map Char.toLower = s.map Char.toLower := by
  cases s with
  | nil => rfl
  | cons c cs => simp [capitalize]

theorem flatten_splitOn (s : PyStr) (d : Char) : (s.splitOn d).flatten = s.filter (· != d) := by
  rw [List.splitOn_eq_splitOnP]
  induction s with
  | nil => rfl
  | cons c cs ih =>
    rw [List.splitOnP_cons_eq_if_modifyHead]
    by_cases hc : c = d
    · simp [hc, ih]
    · obtain ⟨w, ws, hws⟩ := List.exists_cons_of_ne_nil (List.splitOnP_ne_nil (· == d) cs)
      rw [hws] at ih ⊢
      simp [hc, ← ih]

/-- Up to case, the delimiter is dropped. -/
theorem lower_processDelimiter (s : PyStr) (d : Char) :
    (processDelimiter s d).map Char.toLower = (s.filter (· != d)).map Char.toLower := by
  rw [← flatten_splitOn]
  simp only [processDelimiter, List.map_flatten, List.map_map]
  congr 1
  apply List.map_congr_left
  intro w _
  exact lower_capitalize w

/-- A filter that does not see the case. -/
theorem lower_filter (hp : ∀ c, p c.toLower = p c) :
    (s.filter p).map Char.toLower = (s.map Char.toLower).filter p := by
  rw [List.filter_map]
  congr 2
  funext c
  exact (hp c).symm

theorem lower_dropWhile (hp : ∀ c, p c.toLower = p c) :
    (s.dropWhile p).map Char.toLower = (s.map Char.toLower).dropWhile p := by
  rw [List.dropWhile_map]
  congr 2
  funext c
  exact (hp c).symm

/-- A character that is no letter has no other case. -/
theorem toLower_eq_iff {c d : Char} (hd : d.isAlpha = false) : c.toLower = d ↔ c = d := by
  by_cases hc : c.isUpper
  · have halpha : c.isAlpha := by simp [Char.isAlpha, hc]
    constructor
    · rintro rfl
      rw [Char.isAlpha_toLower_eq_isAlpha, halpha] at hd
      cases hd
    · rintro rfl
      rw [halpha] at hd
      cases hd
  · rw [Char.toLower_eq_of_not_isUpper hc]

theorem isNameStart_toLower (c : Char) : isNameStart c.toLower = isNameStart c := by
  unfold isNameStart
  rw [Char.isAlpha_toLower_eq_isAlpha, Bool.eq_iff_iff]
  simp [toLower_eq_iff (d := '_') rfl]

theorem isWordChar_toLower (c : Char) : isWordChar c.toLower = isWordChar c := by
  by_cases hc : c.isUpper
  · have halpha : c.isAlpha := by simp [Char.isAlpha, hc]
    have hlower : c.toLower.isAlpha := by rw [Char.isAlpha_toLower_eq_isAlpha, halpha]
    simp [isWordChar, Char.isAlphanum, halpha, hlower]
  · rw [Char.toLower_eq_of_not_isUpper hc]

theorem isWordChar_lt {c : Char} (h : isWordChar c) : c.toNat < 128 := by
  unfold isWordChar at h
  rcases (Bool.or_eq_true _ _).mp h with h | h
  · simp only [Char.isAlphanum, Char.isAlpha, Char.isUpper, Char.isLower, Char.isDigit,
      Bool.or_eq_true, Bool.and_eq_true, decide_eq_true_eq, UInt32.le_iff_toNat_le, ge_iff_le] at h
    have hval : c.toNat = c.val.toNat := rfl
    have hZ : 'Z'.val.toNat = 90 := rfl
    have hz : 'z'.val.toNat = 122 := rfl
    have h9 : '9'.val.toNat = 57 := rfl
    omega
  · rw [eq_of_beq h]
    decide

/-- The delimiters are the only other characters that `_identifier` leaves. -/
theorem wordChar_eq (c : Char) :
    (c != '.' && (c != '+' && (c != '$' && isNameChar c))) = isWordChar c := by
  unfold isNameChar isWordChar
  by_cases hdot : c = '.'
  · subst hdot
    rfl
  by_cases hplus : c = '+'
  · subst hplus
    rfl
  by_cases hdollar : c = '$'
  · subst hdollar
    rfl
  simp [bne, beq_eq_decide, hdot, hplus, hdollar]

/-- Up to case, the name of the class is what is kept of the type name. -/
theorem lower_createTypeName (typeName : PyStr) :
    (createTypeName typeName).map Char.toLower = (keptName typeName).map Char.toLower := by
  have hstart : ∀ c, (!isNameStart c.toLower) = !isNameStart c := fun c => by
    rw [isNameStart_toLower]
  have hne : ∀ d : Char, d.isAlpha = false → ∀ c : Char, (c.toLower != d) = (c != d) :=
    fun d hd c => by rw [Bool.eq_iff_iff]; simp [toLower_eq_iff hd]
  have hkept : (((typeName.filter isNameChar).filter (· != '$')).filter (· != '+')).filter
      (· != '.') = typeName.filter isWordChar := by
    simp only [List.filter_filter]
    apply List.filter_congr
    intro c _
    exact wordChar_eq c
  unfold createTypeName keptName
  dsimp only
  rw [lower_capitalize, lower_dropWhile hstart, lower_processDelimiter, lower_filter (hne '.' rfl),
    lower_processDelimiter, lower_filter (hne '+' rfl), lower_processDelimiter,
    ← lower_filter (hne '+' rfl), ← lower_filter (hne '.' rfl), hkept, ← lower_dropWhile hstart]

theorem createTypeName_ascii {c : Char} (hc : c ∈ createTypeName s) : c.toNat < 128 := by
  have hlower : c.toLower ∈ (keptName s).map Char.toLower := by
    rw [← lower_createTypeName]
    exact List.mem_map_of_mem hc
  obtain ⟨k, hk, heq⟩ := List.mem_map.mp hlower
  have hword : isWordChar k := (List.mem_filter.mp ((List.dropWhile_sublist _).mem hk)).2
  apply isWordChar_lt
  rw [← isWordChar_toLower, ← heq, isWordChar_toLower, hword]

/-- The type id of the class. -/
theorem entityId_createTypeName [Python] [AsciiLower] (typeName : PyStr) :
    entityId (createTypeName typeName) = hashcodeStr ((keptName typeName).map Char.toLower) := by
  rw [entityId, AsciiLower.lower_ascii _ fun c hc => createTypeName_ascii hc, lower_createTypeName]

end Case

end PyGridGain
