import RunParams.Parameter
import RunParams.Proofs.KeySpelling

/-!
# Values and their texts

The text of a truth value, of a text and of a whole number that is not too long is read back as that value by its type. Such
values are not changed by a passage through text.
-/

namespace RunParams

/-- Nothing is trimmed off a text without characters of the kind. -/
theorem Text.trim_eq_self {p : Char → Bool} {s : List Char} (h : ∀ c ∈ s, p c = false) : trim p s = s := by
  have hdrop : ∀ l : List Char, (∀ c ∈ l, p c = false) → l.dropWhile p = l := by
    intro l hl
    cases l with
    | nil => rfl
    | cons c l => rw [List.dropWhile_cons_of_neg (by simp [hl c])]
  rw [trim, hdrop s h, hdrop _ fun c hc => h c (List.mem_reverse.mp hc), List.reverse_reverse]

namespace Decimal

/-! ## Characters of whole numbers -/

/-- A minus or a basic digit. -/
def InWhole (c : Char) : Prop :=
  c.isDigit = true ∨ c = '-'

/-- Reading a numeral leaves the characters of a whole number as they are. -/
theorem InWhole.plain {c : Char} (h : InWhole c) : basicDigit c = c ∧ isNumeralBlank c = false ∧ c ≠ '_' := by
  rcases h with h | rfl
  · have hlt := toNat_lt_of_isAlphanum (Bool.or_eq_true_iff.mpr (.inr h) : c.isAlphanum = true)
    revert h
    exact ascii_cases (P := fun c => c.isDigit = true → basicDigit c = c ∧ isNumeralBlank c = false ∧ c ≠ '_')
      (by decide) hlt
  · decide

theorem dropUnderscores_eq_self {s : List Char} (h : '_' ∉ s) (after : Bool) : dropUnderscores after s = some s := by
  fun_induction dropUnderscores after s with
  | case1 => rfl
  | case2 => simp at h
  | case3 => simp at h
  | case4 => simp at h
  | case5 after c s hpair hlone ih =>
    rw [ih fun hs => h (List.mem_cons_of_mem _ hs)]
    rfl

/-- A text of digits and minus signs is a numeral as it stands. -/
theorem numeralChars_eq_self {text : String} (h : ∀ c ∈ text.toList, InWhole c) : numeralChars text = some text.toList := by
  have hbasic : text.toList.map basicDigit = text.toList := by
    rw [List.map_congr_left fun c hc => (h c hc).plain.1, List.map_id']
  rw [numeralChars, hbasic, Text.trim_eq_self fun c hc => (h c hc).plain.2.1]
  exact dropUnderscores_eq_self (fun hmem => (h _ hmem).plain.2.2 rfl) false

/-! ## Whole numbers -/

/-- The digits of a natural number are read back as the number if they are not too many. -/
theorem readNat?_toDigits {n : Nat} (h : (Nat.toDigits 10 n).length ≤ maxDigits) : readNat? (Nat.toDigits 10 n) = some n := by
  have hdigits : (Nat.toDigits 10 n).all Char.isDigit = true :=
    List.all_eq_true.mpr fun c hc => Nat.isDigit_of_mem_toDigits (by decide) (by decide) hc
  rw [readNat?, if_pos ⟨Nat.toDigits_ne_nil, hdigits, h⟩, digitsValue, Nat.ofDigitChars_ten_toDigits]

/-- Digits do not start with a sign. -/
theorem splitSign_digits {ds : List Char} (h : ∀ c ∈ ds, c.isDigit = true) : splitSign ds = (false, ds) := by
  unfold splitSign
  split
  · exact absurd (h '-' (by simp)) (by decide)
  · exact absurd (h '+' (by simp)) (by decide)
  · rfl

/-- The text of a whole number is a minus, if the number is negative, and the digits of its absolute value. -/
theorem toList_toString (n : Int) :
    (toString n).toList = (if n < 0 then ['-'] else []) ++ Nat.toDigits 10 n.natAbs := by
  rw [show toString n = n.repr from rfl, Int.repr_eq_if]
  by_cases hn : n < 0
  · have habs : (-n).toNat = n.natAbs := by omega
    rw [if_neg (by omega), if_pos hn, habs, String.toList_append, Nat.toList_repr]
    rfl
  · have habs : n.toNat = n.natAbs := by omega
    rw [if_pos (by omega), if_neg hn, habs, Nat.toList_repr, List.nil_append]

/-- The text of a whole number is read back as the number if it is not too long. -/
theorem readInt?_toString {n : Int} (h : (Nat.toDigits 10 n.natAbs).length ≤ maxDigits) :
    readInt? (toString n) = some n := by
  have hdigit : ∀ c ∈ Nat.toDigits 10 n.natAbs, c.isDigit = true :=
    fun c hc => Nat.isDigit_of_mem_toDigits (by decide) (by decide) hc
  have hwhole : ∀ c ∈ (toString n).toList, InWhole c := by
    intro c hc
    rw [toList_toString, List.mem_append] at hc
    rcases hc with hc | hc
    · split at hc
      · exact .inr (List.mem_singleton.mp hc)
      · cases hc
    · exact .inl (hdigit c hc)
  have hsign : splitSign (toString n).toList = (decide (n < 0), Nat.toDigits 10 n.natAbs) := by
    rw [toList_toString]
    by_cases hn : n < 0
    · simp [hn, splitSign]
    · rw [if_neg hn, List.nil_append, splitSign_digits hdigit, decide_eq_false hn]
  rw [readInt?, numeralChars_eq_self hwhole]
  simp only [bind, Option.bind, hsign, readNat?_toDigits h]
  by_cases hn : n < 0
  · rw [decide_eq_true hn, if_pos rfl]
    exact congrArg some (by omega)
  · rw [decide_eq_false hn, if_neg Bool.false_ne_true]
    exact congrArg some (by omega)

end Decimal

/-- A whole number has a text exactly when it does not have too many digits. -/
theorem intText_eq_ok_iff {n : Int} {text : String} :
    intText n = .ok text ↔ (Nat.toDigits 10 n.natAbs).length ≤ Decimal.maxDigits ∧ text = toString n := by
  have hlength : (Nat.toDigits 10 n.natAbs).length ≤ Decimal.maxDigits ↔
      n.natAbs < Decimal.timesPow 1 10 Decimal.maxDigits := by
    rw [Nat.length_toDigits_le_iff (by decide) (by decide), Decimal.timesPow, Nat.one_mul, Int.toNat_natCast, Nat.pow_eq]
  rw [intText, hlength]
  split
  · simp [*, eq_comm]
  · simp [*]

/-! ## Values that pass through text -/

/-- A value that its text stands for: a truth value, a text, or a whole number that does not have too many digits, each with its
type. -/
inductive Value.Textual : Value → ValueType → Prop
  | bool (b : Bool) : Textual (.bool b) .bool
  | text (s : String) : Textual (.text s) .text
  | int {n : Int} (h : (Nat.toDigits 10 n.natAbs).length ≤ Decimal.maxDigits) : Textual (.int n) .int

/-- The text of such a value is read back as the value. -/
theorem Value.Textual.exists_text {x : Value} {type : ValueType} (h : x.Textual type) :
    ∃ text, x.toText = .ok text ∧ type.read text = .ok x := by
  cases h with
  | bool b => cases b <;> exact ⟨_, rfl, rfl⟩
  | text s => exact ⟨s, rfl, rfl⟩
  | @int n h =>
    refine ⟨toString n, ?_, ?_⟩
    · simp only [Value.toText, Value.display]
      exact intText_eq_ok_iff.mpr ⟨h, rfl⟩
    · rw [ValueType.read, BasicType.read, Decimal.readInt?_toString h]
      rfl

end RunParams
