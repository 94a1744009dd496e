import ActiveRow.Json.Reading
import ActiveRow.Proofs.Decimal.Texts
import ActiveRow.Proofs.Text.Spans
import ActiveRow.Proofs.Uuid

/-!
# Documents and their texts

A document is told by its text when every float in it is finite. Each text says where it ends: words
and numbers at a character that separates or closes, strings, arrays and objects at the character
that closes them. So the items of a list are told one by one.

* `stringBody_escaped`: a quoted text is read back.
* `joined_cut`: a list of texts is told, item by item.
* `told`: a document is told from what is behind it, by induction on the document.
* `text_inj`: documents are told by their texts.
-/

namespace ActiveRow.Json

-- powers are those of core, also beside other instances
attribute [local instance (high)] instPowNat

/-! ### Strings -/

theorem stringBody_plain {c : Char} (hquote : c ≠ '"') (hslash : c ≠ '\\') (hcontrol : 32 ≤ c.toNat)
    (acc r : List Char) : stringBody acc (c :: r) = stringBody (c :: acc) r := by
  rw [stringBody.eq_def]
  split <;> simp_all

theorem stringBody_unicode {n : Nat} (hn : n < 32) (acc r : List Char) :
    stringBody acc ('\\' :: 'u' :: Hex.digits 4 n ++ r) = stringBody (Char.ofNat n :: acc) r := by
  have hread := Hex.read?_digits 4 n
  rw [Nat.mod_eq_of_lt (by omega)] at hread
  obtain ⟨a, b, c, d, hdigits⟩ : ∃ a b c d, Hex.digits 4 n = [a, b, c, d] := ⟨_, _, _, _, rfl⟩
  rw [hdigits] at hread ⊢
  have hlow : ¬(0xDC00 ≤ n ∧ n ≤ 0xDFFF) := by omega
  have hhigh : ¬(0xD800 ≤ n ∧ n ≤ 0xDBFF) := by omega
  simp only [List.cons_append, List.nil_append, stringBody, hread]
  rw [if_neg hlow, if_neg hhigh]

/-- A short escape is read as the character it stands for. -/
theorem stringBody_short {c d : Char} (hu : c ≠ 'u') (h : unescape? c = some d)
    (acc r : List Char) : stringBody acc ('\\' :: c :: r) = stringBody (d :: acc) r := by
  simp [stringBody, hu, h]

/-- **An escaped character is read** as the character. -/
theorem stringBody_escape (c : Char) (acc r : List Char) :
    stringBody acc (escape c ++ r) = stringBody (c :: acc) r := by
  have hcontrol : ∀ n, c.toNat = n → c = Char.ofNat n := fun n hn => by
    rw [← hn, Char.ofNat_toNat]
  unfold escape
  by_cases hquote : c = '"'
  · subst hquote
    exact stringBody_short (by decide) rfl acc r
  rw [if_neg hquote]
  by_cases hslash : c = '\\'
  · subst hslash
    exact stringBody_short (by decide) rfl acc r
  rw [if_neg hslash]
  by_cases hplain : 32 ≤ c.toNat
  · rw [if_pos hplain]
    exact stringBody_plain hquote hslash hplain acc r
  rw [if_neg hplain]
  split
  · exact stringBody_short (by decide) (by rw [hcontrol _ ‹_›]; rfl) acc r
  split
  · exact stringBody_short (by decide) (by rw [hcontrol _ ‹_›]; rfl) acc r
  split
  · exact stringBody_short (by decide) (by rw [hcontrol _ ‹_›]; rfl) acc r
  split
  · exact stringBody_short (by decide) (by rw [hcontrol _ ‹_›]; rfl) acc r
  split
  · exact stringBody_short (by decide) (by rw [hcontrol _ ‹_›]; rfl) acc r
  · have hread := stringBody_unicode (show c.toNat < 32 by omega) acc r
    rwa [Char.ofNat_toNat] at hread

/-- **A quoted text is read back**, and nothing behind it. -/
theorem stringBody_escaped (cs : List Char) (acc r : List Char) :
    stringBody acc (cs.flatMap escape ++ '"' :: r) =
      some (String.ofList (acc.reverse ++ cs), r) := by
  induction cs generalizing acc with
  | nil => simp [stringBody]
  | cons c cs ih =>
    rw [List.flatMap_cons, List.append_assoc, stringBody_escape, ih]
    simp

theorem toList_quoted (s : String) :
    (quoted s).toList = '"' :: (s.toList.flatMap escape ++ ['"']) := by
  simp [quoted, String.toList_append]

/-- Quoted texts are told from what is behind them. -/
theorem quoted_cut {s t : String} {r r' : List Char}
    (h : (quoted s).toList ++ r = (quoted t).toList ++ r') : s = t ∧ r = r' := by
  rw [toList_quoted, toList_quoted] at h
  simp only [List.cons_append, List.append_assoc, List.nil_append, List.cons.injEq, true_and] at h
  have hread := congrArg (stringBody []) h
  rw [stringBody_escaped, stringBody_escaped] at hread
  simpa using hread

/-! ### What stands behind a document -/

/-- Nothing, or a character that separates or closes. -/
def Ends (r : List Char) : Prop := ∀ c ∈ r.head?, c = ',' ∨ c = ']' ∨ c = '\x7d'

theorem ends_comma (r : List Char) : Ends (',' :: r) := by simp [Ends]

theorem ends_close {close : Char} (h : close = ']' ∨ close = '\x7d') (r : List Char) :
    Ends (close :: r) := by
  intro c hc
  obtain rfl : c = close := by simpa [eq_comm] using hc
  exact .inr h

theorem Ends.not_numeral {r : List Char} (h : Ends r) :
    ∀ c ∈ r.head?, Decimal.isNumeral c = false := by
  intro c hc
  rcases h c hc with rfl | rfl | rfl <;> decide

/-! ### Lists of texts -/

section

variable {α : Type} {write : α → List Char} {close : Char} {l l' : List α} {r s : List Char}

/-- The text of an item is told from what is behind it. -/
def Told (write : α → List Char) (good : α → Prop) (a : α) : Prop :=
  ∀ b, good b → ∀ {r s : List Char}, Ends r → Ends s → write a ++ r = write b ++ s → a = b ∧ r = s

/-- What stands behind an item: the other items, each behind a comma, and what closes the list. -/
def behind (write : α → List Char) (close : Char) (r : List Char) : List α → List Char
  | [] => close :: r
  | a :: l => ',' :: (write a ++ behind write close r l)

theorem intercalate_cons_append (a : α) (l : List α) :
    [','].intercalate ((a :: l).map write) ++ close :: r = write a ++ behind write close r l := by
  induction l generalizing a with
  | nil => simp [behind]
  | cons b l ih =>
    rw [List.map_cons, List.map_cons, List.intercalate_cons_cons, ← List.map_cons,
      List.append_assoc, List.append_assoc, ih, behind]
    rfl

variable (hclose : close = ']' ∨ close = '\x7d') {good : α → Prop} (hl : ∀ a ∈ l, good a)
  (hl' : ∀ a ∈ l', good a) (hcut : ∀ a ∈ l, Told write good a)

include hclose

theorem ends_behind (l : List α) : Ends (behind write close r l) := by
  cases l with
  | nil => exact ends_close hclose r
  | cons a l => exact ends_comma _

include hl' hcut

theorem behind_cut (h : behind write close r l = behind write close s l') : l = l' ∧ r = s := by
  have hcomma : close ≠ ',' := by rcases hclose with rfl | rfl <;> decide
  induction l generalizing l' with
  | nil =>
    cases l' with
    | nil => simpa [behind] using h
    | cons b l' => exact absurd (List.cons.inj h).1 hcomma
  | cons a l ih =>
    cases l' with
    | nil => exact absurd (List.cons.inj h).1.symm hcomma
    | cons b l' =>
      rw [List.forall_mem_cons] at hl' hcut
      obtain ⟨rfl, hrest⟩ := hcut.1 b hl'.1 (ends_behind hclose l) (ends_behind hclose l')
        (List.cons.inj h).2
      obtain ⟨rfl, rfl⟩ := ih hl'.2 hcut.2 hrest
      exact ⟨rfl, rfl⟩

include hl

/-- **A list of texts is told**, item by item, up to the character that closes it. -/
theorem joined_cut (hopen : ∀ a, good a → ∃ c rest, write a = c :: rest ∧ c ≠ close)
    (h : [','].intercalate (l.map write) ++ close :: r =
      [','].intercalate (l'.map write) ++ close :: s) : l = l' ∧ r = s := by
  have hfirst : ∀ (a : α) (l : List α) (r s : List Char), good a →
      [','].intercalate ((a :: l).map write) ++ close :: r ≠ close :: s := by
    intro a l r s ha heq
    obtain ⟨c, rest, hc, hne⟩ := hopen a ha
    rw [intercalate_cons_append, hc] at heq
    exact hne (List.cons.inj heq).1
  cases l with
  | nil =>
    cases l' with
    | nil => simpa using h
    | cons b l' => exact absurd h.symm (hfirst b l' s r (hl' b List.mem_cons_self))
  | cons a l =>
    cases l' with
    | nil => exact absurd h (hfirst a l r s (hl a List.mem_cons_self))
    | cons b l' =>
      rw [intercalate_cons_append, intercalate_cons_append] at h
      rw [List.forall_mem_cons] at hl' hcut
      obtain ⟨rfl, hrest⟩ := hcut.1 b hl'.1 (ends_behind hclose l) (ends_behind hclose l') h
      obtain ⟨rfl, rfl⟩ := behind_cut hclose hl'.2 hcut.2 hrest
      exact ⟨rfl, rfl⟩

end

/-! ### Documents -/

mutual

/-- Every float in the document is finite. -/
def Finite : Json → Prop
  | float x => x.isFinite = true
  | array items => ItemsFinite items
  | object fields => FieldsFinite fields
  | _ => True

def ItemsFinite : List Json → Prop
  | [] => True
  | j :: rest => j.Finite ∧ ItemsFinite rest

def FieldsFinite : List (String × Json) → Prop
  | [] => True
  | (_, j) :: rest => j.Finite ∧ FieldsFinite rest

end

theorem itemsFinite_iff (js : List Json) : ItemsFinite js ↔ ∀ j ∈ js, j.Finite := by
  induction js with
  | nil => simp [ItemsFinite]
  | cons j js ih => simp [ItemsFinite, ih]

theorem fieldsFinite_iff (l : List (String × Json)) : FieldsFinite l ↔ ∀ e ∈ l, e.2.Finite := by
  induction l with
  | nil => simp [FieldsFinite]
  | cons e l ih => simp [FieldsFinite, ih]

/-- The text of a member. -/
def memberText (e : String × Json) : List Char := (quoted e.1).toList ++ ':' :: e.2.text.toList

theorem toList_text_array (items : List Json) : (array items).text.toList =
    '[' :: ([','].intercalate (items.map fun j => j.text.toList) ++ [']']) := by
  have hitems : textItems items = items.map text := by
    induction items with
    | nil => rfl
    | cons j js ih => rw [textItems, ih, List.map_cons]
  simp [text, String.toList_append, String.toList_intercalate, hitems, Function.comp_def]

theorem toList_text_object (fields : List (String × Json)) : (object fields).text.toList =
    '\x7b' :: ([','].intercalate (fields.map memberText) ++ ['\x7d']) := by
  have hfields : (textFields fields).map String.toList = fields.map memberText := by
    induction fields with
    | nil => rfl
    | cons e l ih => simp [textFields, ih, memberText, String.toList_append]
  simp [text, String.toList_append, String.toList_intercalate, hfields]

/-- The character that a document begins with, all numbers alike. -/
def opening : Json → Char
  | null => 'n'
  | bool b => if b then 't' else 'f'
  | integer _ | float _ => '0'
  | string _ => '"'
  | array _ => '['
  | object _ => '\x7b'

def openingOf (c : Char) : Char := if Decimal.isNumeral c then '0' else c

theorem mem_whole {n : Int} {c : Char} (hc : c ∈ (Decimal.whole n).toList) :
    c = '-' ∨ c.isDigit = true := by
  unfold Decimal.whole at hc
  split at hc
  · rw [String.toList_append] at hc
    exact (List.mem_append.1 hc).imp List.mem_singleton.1 Decimal.isDigit_of_mem_repr
  · exact .inr (Decimal.isDigit_of_mem_repr hc)

theorem whole_ne_nil (n : Int) : (Decimal.whole n).toList ≠ [] := by
  unfold Decimal.whole
  split <;> simp [String.toList_append, Nat.toList_repr]

/-- The text of a number consists of characters of numerals. -/
theorem numeral_text_integer (n : Int) :
    ∀ c ∈ (integer n).text.toList, Decimal.isNumeral c = true := by
  intro c hc
  rw [text] at hc
  rcases mem_whole hc with rfl | hdigit
  · decide
  · simp [Decimal.isNumeral, hdigit]

theorem text_float {x : Double} (hx : x.isFinite = true) :
    (float x).text = Decimal.documented x := by rw [text, if_pos hx]

theorem numeral_text_float {x : Double} (hx : x.isFinite = true) :
    ∀ c ∈ (float x).text.toList, Decimal.isNumeral c = true := by
  rw [text_float hx]
  exact (Decimal.writesDouble_documented hx).1.numeral

/-- No integer is written as a float. -/
theorem text_integer_ne_float (n : Int) {x : Double} (hx : x.isFinite = true) :
    (integer n).text ≠ (float x).text := by
  intro h
  rw [text, text_float hx] at h
  have hmarks := (Decimal.writesDouble_documented hx).2
  rw [← h] at hmarks
  rcases hmarks with hmark | hmark
  · exact absurd (mem_whole hmark) (by decide)
  · exact absurd (mem_whole hmark) (by decide)

theorem head_text {j : Json} (hj : j.Finite) :
    ∃ c rest, j.text.toList = c :: rest ∧ openingOf c = j.opening := by
  have hnumber : ∀ {cs : List Char}, cs ≠ [] → (∀ c ∈ cs, Decimal.isNumeral c = true) →
      ∃ c rest, cs = c :: rest ∧ openingOf c = '0' := by
    intro cs hne hcs
    obtain ⟨c, rest, rfl⟩ := List.exists_cons_of_ne_nil hne
    exact ⟨c, rest, rfl, if_pos (hcs c List.mem_cons_self)⟩
  cases j with
  | null => exact ⟨'n', _, rfl, by decide⟩
  | bool b => cases b with
    | false => exact ⟨'f', _, rfl, by decide⟩
    | true => exact ⟨'t', _, rfl, by decide⟩
  | integer n => exact hnumber (whole_ne_nil n) (numeral_text_integer n)
  | float x =>
    refine hnumber (fun hnil => ?_) (numeral_text_float hj)
    have hmarks := (Decimal.writesDouble_documented hj).2
    rw [← text_float hj, hnil] at hmarks
    simp at hmarks
  | string s => exact ⟨'"', _, by rw [text, toList_quoted], rfl⟩
  | array items => exact ⟨'[', _, toList_text_array items, rfl⟩
  | object fields => exact ⟨'\x7b', _, toList_text_object fields, rfl⟩

theorem opening_eq {j k : Json} (hj : j.Finite) (hk : k.Finite) {r s : List Char}
    (h : j.text.toList ++ r = k.text.toList ++ s) : j.opening = k.opening := by
  obtain ⟨c, rest, hc, hopen⟩ := head_text hj
  obtain ⟨d, rest', hd, hopen'⟩ := head_text hk
  rw [hc, hd] at h
  rw [← hopen, ← hopen', (List.cons.inj h).1]

/-- No document begins with a character that closes a list. -/
theorem text_open {close : Char} (hclose : close = ']' ∨ close = '\x7d') (j : Json)
    (hj : j.Finite) : ∃ c rest, j.text.toList = c :: rest ∧ c ≠ close := by
  obtain ⟨c, rest, hc, hopen⟩ := head_text hj
  refine ⟨c, rest, hc, ?_⟩
  rintro rfl
  have hother : openingOf c = c := by rcases hclose with rfl | rfl <;> decide
  rw [hother] at hopen
  rcases hclose with rfl | rfl <;> cases j <;> simp [opening] at hopen
  all_goals split at hopen <;> cases hopen

/-- Numbers are told from what is behind them. -/
theorem numeral_cut {x y r s : List Char} (hx : ∀ c ∈ x, Decimal.isNumeral c = true)
    (hy : ∀ c ∈ y, Decimal.isNumeral c = true) (hr : Ends r) (hs : Ends s)
    (h : x ++ r = y ++ s) : x = y ∧ r = s :=
  Text.span_unique hx hy hr.not_numeral hs.not_numeral h

/-- Names of members begin with a quote. -/
theorem memberText_open (e : String × Json) :
    ∃ c rest, memberText e = c :: rest ∧ c ≠ '\x7d' :=
  ⟨'"', _, by rw [memberText, toList_quoted]; rfl, by decide⟩

/-- Two documents that begin alike. -/
inductive Alike : Json → Json → Prop
  | null : Alike null null
  | bool (b : Bool) : Alike (bool b) (bool b)
  | integers (m n : Int) : Alike (integer m) (integer n)
  | floats (x y : Double) : Alike (float x) (float y)
  | integerFloat (n : Int) (x : Double) : Alike (integer n) (float x)
  | floatInteger (x : Double) (n : Int) : Alike (float x) (integer n)
  | strings (s t : String) : Alike (string s) (string t)
  | arrays (l m : List Json) : Alike (array l) (array m)
  | objects (l m : List (String × Json)) : Alike (object l) (object m)

theorem alike_of_opening_eq {j k : Json} (h : j.opening = k.opening) : Alike j k := by
  rcases j with _ | a | _ | _ | _ | _ | _ <;> rcases k with _ | b | _ | _ | _ | _ | _
  all_goals try cases a
  all_goals try cases b
  all_goals first | constructor | cases h

theorem told_null : Told (fun j => j.text.toList) Finite null := fun k hk r s _ _ h => by
  cases alike_of_opening_eq (opening_eq (j := null) trivial hk h)
  exact ⟨rfl, List.append_cancel_left h⟩

theorem told_bool (b : Bool) : Told (fun j => j.text.toList) Finite (bool b) :=
  fun k hk r s _ _ h => by
    cases alike_of_opening_eq (opening_eq (j := bool b) trivial hk h)
    exact ⟨rfl, List.append_cancel_left h⟩

theorem told_integer (m : Int) : Told (fun j => j.text.toList) Finite (integer m) := by
  intro k hk r s hr hs h
  have hm := numeral_text_integer m
  cases alike_of_opening_eq (opening_eq (j := integer m) trivial hk h) with
  | integers m n =>
    obtain ⟨htext, hrest⟩ := numeral_cut hm (numeral_text_integer n) hr hs h
    rw [Decimal.whole_inj (String.toList_inj.1 htext)]
    exact ⟨rfl, hrest⟩
  | integerFloat n x =>
    obtain ⟨htext, -⟩ := numeral_cut hm (numeral_text_float hk) hr hs h
    exact absurd (String.toList_inj.1 htext) (text_integer_ne_float m hk)

theorem told_float {x : Double} (hx : x.isFinite = true) :
    Told (fun j => j.text.toList) Finite (float x) := by
  intro k hk r s hr hs h
  have htext := numeral_text_float hx
  cases alike_of_opening_eq (opening_eq (j := float x) hx hk h) with
  | floats x y =>
    obtain ⟨htext, hrest⟩ := numeral_cut htext (numeral_text_float hk) hr hs h
    rw [text_float hx, text_float hk] at htext
    rw [Decimal.documented_inj hx hk (String.toList_inj.1 htext)]
    exact ⟨rfl, hrest⟩
  | floatInteger x n =>
    obtain ⟨htext, -⟩ := numeral_cut htext (numeral_text_integer n) hr hs h
    exact absurd (String.toList_inj.1 htext).symm (text_integer_ne_float n hx)

theorem told_string (t : String) : Told (fun j => j.text.toList) Finite (string t) :=
  fun k hk r s _ _ h => by
    cases alike_of_opening_eq (opening_eq (j := string t) trivial hk h)
    obtain ⟨rfl, hrest⟩ := quoted_cut h
    exact ⟨rfl, hrest⟩

theorem told_array {l : List Json} (hl : ItemsFinite l)
    (htold : ∀ j ∈ l, Told (fun j => j.text.toList) Finite j) :
    Told (fun j => j.text.toList) Finite (array l) := by
  intro k hk r s _ _ h
  cases alike_of_opening_eq (opening_eq (j := array l) hl hk h) with | arrays l m =>
  dsimp only at h
  rw [toList_text_array, toList_text_array] at h
  simp only [List.cons_append, List.append_assoc, List.nil_append, List.cons.injEq, true_and] at h
  obtain ⟨rfl, hrest⟩ := joined_cut (.inl rfl) ((itemsFinite_iff l).1 hl)
    ((itemsFinite_iff m).1 hk) htold (text_open (.inl rfl)) h
  exact ⟨rfl, hrest⟩

/-- A member is told when its value is. -/
theorem told_member {e : String × Json} (h : Told (fun j => j.text.toList) Finite e.2) :
    Told memberText (fun f => f.2.Finite) e := by
  intro f hf r s hr hs htext
  rw [memberText, memberText, List.append_assoc, List.append_assoc] at htext
  obtain ⟨hkey, hrest⟩ := quoted_cut htext
  rw [List.cons_append, List.cons_append, List.cons_inj_right] at hrest
  obtain ⟨hj, hrest⟩ := h f.2 hf hr hs hrest
  exact ⟨Prod.ext hkey hj, hrest⟩

theorem told_object {l : List (String × Json)} (hl : FieldsFinite l)
    (htold : ∀ e ∈ l, Told memberText (fun e => e.2.Finite) e) :
    Told (fun j => j.text.toList) Finite (object l) := by
  intro k hk r s _ _ h
  cases alike_of_opening_eq (opening_eq (j := object l) hl hk h) with | objects l m =>
  dsimp only at h
  rw [toList_text_object, toList_text_object] at h
  simp only [List.cons_append, List.append_assoc, List.nil_append, List.cons.injEq, true_and] at h
  obtain ⟨rfl, hrest⟩ := joined_cut (.inr rfl) ((fieldsFinite_iff l).1 hl)
    ((fieldsFinite_iff m).1 hk) htold (fun e _ => memberText_open e) h
  exact ⟨rfl, hrest⟩

mutual

/-- **A document is told** from what is behind it. -/
theorem told : ∀ j : Json, j.Finite → Told (fun j => j.text.toList) Finite j
  | .null, _ => told_null
  | .bool b, _ => told_bool b
  | .integer m, _ => told_integer m
  | .float _, hx => told_float hx
  | .string t, _ => told_string t
  | .array l, hl => told_array hl (told_items l hl)
  | .object l, hl => told_object hl (told_members l hl)

theorem told_items : ∀ l : List Json, ItemsFinite l →
    ∀ j ∈ l, Told (fun j => j.text.toList) Finite j
  | i :: l, hl, j, hj => by
    rcases List.mem_cons.1 hj with hj | hj
    · exact hj ▸ told i hl.1
    · exact told_items l hl.2 j hj

theorem told_members : ∀ l : List (String × Json), FieldsFinite l →
    ∀ e ∈ l, Told memberText (fun e => e.2.Finite) e
  | (key, j) :: l, hl, e, he => by
    rcases List.mem_cons.1 he with he | he
    · exact he ▸ told_member (told j hl.1)
    · exact told_members l hl.2 e he

end

/-- **Documents are told by their texts.** -/
theorem text_inj {j k : Json} (hj : j.Finite) (hk : k.Finite) (h : j.text = k.text) : j = k :=
  (told j hj k hk (r := []) (s := []) (by simp [Ends]) (by simp [Ends]) (by simp only [h])).1

end ActiveRow.Json
