import ActiveRow.Cast
import ActiveRow.Proofs.Decimal.Numeral

/-!
# Texts as integers

The cast to integers leaves a float alone that is not finite. Of a text it takes the integer, or
else the double that the text says, and does not ask whether that double is finite: a text that says
an infinity, a number from the overflow of doubles on or no number at all becomes an integer too.

* `TextRule`: the integer of a text by the rule that holds for floats.
* `integer_text`: the texts for which the cast keeps the rule, and what the others become.
-/

namespace ActiveRow

namespace Cast

open Decimal (Whole Numeral Reading)

variable {s : String} {negative : Bool} {r : Reading}

/-- What a text says without the blanks around it. -/
abbrev content (s : String) : List Char := Text.trimChars s.toList

/-- Whether the text is an integer of 64 bits. -/
def IsWord (s : String) : Prop := ∃ n : Int64, Whole (content s) n.toInt

/-- **The rule for texts**: an integer is itself, any other finite number is treated as a float, and
what is neither stays. -/
inductive TextRule (s : String) : Value → Prop where
  | word {n : Int64} (h : Whole (content s) n.toInt) : TextRule s (.int n)
  | finite {negative : Bool} {r : Reading} (hword : ¬IsWord s)
      (h : Numeral (content s) negative r) (hfinite : r.IsFinite) :
      TextRule s (apply integer (.float (r.double negative)))
  | other (hword : ¬IsWord s)
      (h : ∀ negative r, Numeral (content s) negative r → ¬r.IsFinite) : TextRule s (.text s)

/-- A numeral that says no finite number. -/
structure Strays (s : String) (negative : Bool) (r : Reading) : Prop where
  word : ¬IsWord s
  numeral : Numeral (content s) negative r
  infinite : ¬r.IsFinite

/-- The integer that is taken for what is no finite number. -/
def bound (negative : Bool) : Reading → Int64
  | .nan => 0
  | _ => if negative then Int64.minValue else Int64.maxValue

/-! ### What the cast reads -/

theorem int64?_eq_none_iff : Decimal.int64? (content s) = none ↔ ¬IsWord s := by
  rw [Option.eq_none_iff_forall_ne_some, IsWord, not_exists]
  exact forall_congr' fun n => not_congr Decimal.int64?_eq_some_iff

theorem integer_float (x : Double) :
    apply integer (.float x) = if x.isFinite then .int x.toInt64 else .float x := rfl

theorem integer_word {n : Int64} (h : Whole (content s) n.toInt) :
    apply integer (.text s) = .int n := by
  show toInteger (.text s) = _
  simp only [toInteger, Decimal.int64?_eq_some_iff.2 h]

/-- Any other numeral becomes an integer, whatever it says. -/
theorem integer_numeral (hword : ¬IsWord s) (h : Numeral (content s) negative r) :
    apply integer (.text s) = .int (r.double negative).toInt64 := by
  have hdouble := Decimal.double?_eq_some_iff.2 ⟨negative, r, h, rfl⟩
  show toInteger (.text s) = _
  simp only [toInteger, int64?_eq_none_iff.2 hword, hdouble]

theorem integer_other (hword : ¬IsWord s) (h : ∀ negative r, ¬Numeral (content s) negative r) :
    apply integer (.text s) = .text s := by
  have hdouble : Decimal.double? (content s) = none := by
    rw [Option.eq_none_iff_forall_ne_some]
    intro x hx
    obtain ⟨negative, r, hr, -⟩ := Decimal.double?_eq_some_iff.1 hx
    exact h negative r hr
  show toInteger (.text s) = _
  simp only [toInteger, int64?_eq_none_iff.2 hword, hdouble]

/-! ### Numerals that say no finite number -/

theorem toInt64_of_not_finite (h : ¬r.IsFinite) :
    (r.double negative).toInt64 = bound negative r := by
  by_cases hnan : r = .nan
  · subst hnan
    exact Double.toInt64_ofMagnitude_nan negative
  · rw [Reading.double_of_not_finite hnan h, Double.toInt64_infinity, bound]
    exact fun heq => absurd heq hnan

theorem Strays.integer_eq (h : Strays s negative r) :
    apply integer (.text s) = .int (bound negative r) := by
  rw [integer_numeral h.word h.numeral, toInt64_of_not_finite h.infinite]

/-- The float that such a numeral says is left alone. -/
theorem Strays.float_eq (h : Strays s negative r) :
    apply integer (.float (r.double negative)) = .float (r.double negative) := by
  rw [integer_float, if_neg fun hx => h.infinite (h.numeral.isFinite_double_iff.1 hx)]

/-- Nothing else that the text says is a finite number. -/
theorem Strays.not_isFinite (h : Strays s negative r) {negative' : Bool} {r' : Reading}
    (h' : Numeral (content s) negative' r') : ¬r'.IsFinite := by
  rw [← h'.isFinite_double_iff, ← h.numeral.double_unique h', h.numeral.isFinite_double_iff]
  exact h.infinite

theorem Strays.textRule_iff (h : Strays s negative r) {v : Value} :
    TextRule s v ↔ v = .text s := by
  constructor
  · intro hv
    cases hv with
    | word hn => exact absurd ⟨_, hn⟩ h.word
    | finite _ hr hfinite => exact absurd hfinite (h.not_isFinite hr)
    | other _ _ => rfl
  · rintro rfl
    exact .other h.word fun _ _ => h.not_isFinite

/-! ### The rule -/

theorem textRule_integer (h : ∀ negative r, ¬Strays s negative r) :
    TextRule s (apply integer (.text s)) := by
  by_cases hword : IsWord s
  · obtain ⟨n, hn⟩ := hword
    rw [integer_word hn]
    exact .word hn
  · -- a numeral that is not finite would stray
    by_cases hnumeral : ∃ negative r, Numeral (content s) negative r
    · obtain ⟨negative, r, hr⟩ := hnumeral
      have hfinite : r.IsFinite := by
        by_contra hinfinite
        exact h negative r ⟨hword, hr, hinfinite⟩
      have hsame : apply integer (.text s) = apply integer (.float (r.double negative)) := by
        rw [integer_numeral hword hr, integer_float, if_pos (hr.isFinite_double_iff.2 hfinite)]
      rw [hsame]
      exact .finite hword hr hfinite
    · have hnone : ∀ negative r, ¬Numeral (content s) negative r :=
        fun negative r hr => hnumeral ⟨negative, r, hr⟩
      rw [integer_other hword hnone]
      exact .other hword fun negative r hr => absurd hr (hnone negative r)

/-- **The cast keeps the rule for texts** exactly when the text is no numeral of a number that is
not finite. There the rule leaves the text alone, as the cast does with the float of that number,
and the cast gives an integer: zero for no number, and the last one on its side for the others. -/
theorem integer_text (s : String) :
    (TextRule s (apply integer (.text s)) ↔ ¬∃ negative r, Strays s negative r) ∧
      ∀ negative r, Strays s negative r →
        apply integer (.text s) = .int (bound negative r) ∧ (∀ v, TextRule s v ↔ v = .text s) ∧
          apply integer (.float (r.double negative)) = .float (r.double negative) := by
  refine ⟨⟨?_, ?_⟩, fun negative r h => ⟨h.integer_eq, fun v => h.textRule_iff, h.float_eq⟩⟩
  · rintro hrule ⟨negative, r, h⟩
    have heq := h.textRule_iff.1 hrule
    rw [h.integer_eq] at heq
    cases heq
  · intro h
    exact textRule_integer fun negative r hr => h ⟨negative, r, hr⟩

theorem strays_negativeInfinity : Strays " -inf " true .infinity where
  word := int64?_eq_none_iff.1 (by decide)
  numeral := .minus (.infinity (by decide))
  infinite := not_false

/-- A text that says the lesser infinity becomes the least integer. -/
theorem integer_text_negativeInfinity :
    Strays " -inf " true .infinity ∧ apply integer (.text " -inf ") = .int Int64.minValue ∧
      apply integer (.float (.infinity true)) = .float (.infinity true) :=
  ⟨strays_negativeInfinity, ((integer_text " -inf ").2 _ _ strays_negativeInfinity).1,
    ((integer_text " -inf ").2 _ _ strays_negativeInfinity).2.2⟩

theorem strays_nan : Strays "NaN" false .nan where
  word := int64?_eq_none_iff.1 (by decide)
  numeral := .plain (.nan (by decide))
  infinite := not_false

/-- **A text that says no number becomes zero**, where the rule leaves it alone. -/
theorem nan_text_counted :
    apply integer (.text "NaN") = .int 0 ∧ ¬TextRule "NaN" (.int 0) ∧
      TextRule "NaN" (.text "NaN") := by
  refine ⟨strays_nan.integer_eq, ?_, strays_nan.textRule_iff.2 rfl⟩
  rw [strays_nan.textRule_iff]
  exact nofun

end Cast

end ActiveRow
