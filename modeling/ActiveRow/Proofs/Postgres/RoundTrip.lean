import Mathlib.Data.List.Forall2
import ActiveRow.Postgres.Decode
import ActiveRow.Proofs.Postgres.IntegerColumn

/-!
# Values there and back

A column reads the bytes of a parameter back as the value that was encoded, bit for bit, when its
type is one that the value belongs to. The only values of these types without a form are those that
the form has no room for: integers beyond the column, and arrays where a length is beyond four
bytes.

* `Scalar.Carries`, `Kind.Carries`: which values belong to a type.
* `encodeScalar_of_carries`: what is sent for a single value reads back.
* `encodeItem_of_belongs`: so does an item of an array, when it is not too long.
* `items?_itemBytes`, `decodeArray?_arrayBytes`: the items of an array are read one by one.
* `decode_encode`: the round trip of every value that belongs to a type.
-/

namespace ActiveRow

-- powers are those of core, also beside other instances
attribute [local instance (high)] instPowNat

namespace Postgres

/-! ### Numbers and texts -/

theorem toNat_signed {width n : Nat} (h : n < 256 ^ width) :
    BigEndian.toNat (BigEndian.signed width n) = n := by
  have hm : ((n : Int) % 256 ^ width).toNat = n := by
    have hc : ((256 ^ width : Nat) : Int) = 256 ^ width := by simp
    rw [← hc, ← Int.natCast_emod, Int.toNat_natCast, Nat.mod_eq_of_lt h]
  rw [BigEndian.signed, hm, BigEndian.toNat_unsigned h]

/-- A number in front of other bytes is split off. -/
theorem number?_append {width : Nat} {bs : Bytes} (h : bs.length = width) (rest : Bytes) :
    Numeric.number? width (bs ++ rest) = some (BigEndian.toNat bs, rest) := by
  subst h
  simp [Numeric.number?]

theorem toList_loop (bs : ByteArray) (i : Nat) (acc : List UInt8) :
    ByteArray.toList.loop bs i acc = acc.reverse ++ bs.data.toList.drop i := by
  fun_induction ByteArray.toList.loop bs i acc with
  | case1 i acc h ih =>
    have hi : i < bs.data.toList.length := by simpa using h
    have hget : bs.get! i = bs.data.toList[i] := by
      simpa [ByteArray.get!] using getElem!_pos bs.data i (by simpa using h)
    rw [ih, List.drop_eq_getElem_cons hi, hget]
    simp
  | case2 i acc h =>
    have hi : bs.data.toList.length ≤ i := by simpa using h
    rw [List.drop_eq_nil_of_le hi, List.append_nil]

theorem textBytes_eq (s : String) : textBytes s = s.toByteArray.data.toList := by
  rw [textBytes, String.toUTF8, ByteArray.toList, toList_loop]
  simp

theorem length_textBytes (s : String) : (textBytes s).length = s.utf8ByteSize := by
  rw [textBytes_eq]
  rfl

theorem decodeText?_textBytes (s : String) : decodeText? (textBytes s) = some s := by
  have hbytes : (⟨(textBytes s).toArray⟩ : ByteArray) = s.toByteArray := by
    rw [textBytes_eq]
  rw [decodeText?, hbytes, String.fromUTF8?, dif_pos s.isValidUTF8]
  rfl

/-! ### Single values -/

/-- The values that belong to a type: each has a form of its own there. A moment belongs when it is
a whole number of microseconds, and in no leap second. -/
inductive Scalar.Carries : Scalar → Value → Prop
  | bool (b : Bool) : Carries .bool (.bool b)
  | int {k : IntegerColumn} {n : Int64} (h : k.Holds n.toInt) : Carries k.scalar (.int n)
  | float (x : Double) : Carries .float8 (.float x)
  | text (s : String) : Carries .text (.text s)
  | varchar (s : String) : Carries .varchar (.text s)
  | uuid (u : Uuid) : Carries .uuid (.uuid u)
  | moment (t : Timestamp) (hleap : t.nanos < 1000000000) (hwhole : t.nanos % 1000 = 0) :
      Carries .timestamptz (.timestamp t)

/-- The types that some value belongs to. -/
def Scalar.carrying : List Scalar :=
  [.bool, .int2, .int4, .int8, .oid, .float8, .text, .varchar, .uuid, .timestamptz]

/-- Those among them that arrays are made of. -/
def Scalar.inArrays : List Scalar :=
  [.bool, .int2, .int4, .int8, .float8, .uuid, .text, .varchar]

theorem Scalar.Carries.mem {s : Scalar} {v : Value} (h : s.Carries v) : s ∈ Scalar.carrying := by
  cases h with
  | @int k => cases k <;> decide
  | _ => decide

theorem isReadable_of_mem {s : Scalar} (h : s ∈ Scalar.carrying) :
    (Kind.scalar s).isReadable = true := by
  cases s with
  | other n => simp [Scalar.carrying] at h
  | _ => rfl

/-- An item of an array has a length of its own in front, and so must not be too long. Only texts
can be. -/
def IsShort : Value → Prop
  | .text s => s.utf8ByteSize ≤ maxLength
  | _ => True

/-- The bytes that are sent for a value read back as the value. -/
structure Restores (s : Scalar) (v : Value) (bs : Bytes) : Prop where
  sent : encodeScalar s v = sent bs
  read : decodeScalar? s bs = some v
  short : bs.length ≤ maxLength ↔ IsShort v

theorem restores_int {k : IntegerColumn} {n : Int64} (h : k.Holds n.toInt) :
    ∃ bs, Restores k.scalar (.int n) bs := by
  obtain ⟨bs, hsent, hlength, hread⟩ := encodeInt_of_holds h
  have hvalue : intValue (k.read bs) = .int n := by rw [hread, intValue, Int64.ofInt_toInt]
  have hwidth : k.width ≤ maxLength := by cases k <;> decide
  have hdecoded : decodeScalar? k.scalar bs = some (intValue (k.read bs)) := by
    cases k <;> simp_all [decodeScalar?, decodeNat?, decodeInt?, IntegerColumn.scalar,
      IntegerColumn.width, IntegerColumn.read]
  exact ⟨bs, hsent, hvalue ▸ hdecoded, iff_of_true (hlength ▸ hwidth) trivial⟩

theorem restores_float (x : Double) :
    Restores .float8 (.float x) (BigEndian.unsigned 8 x.bits.toNat) where
  sent := rfl
  read := by
    have hbits : BigEndian.toNat (BigEndian.unsigned 8 x.bits.toNat) = x.bits.toNat :=
      BigEndian.toNat_unsigned x.bits.toNat_lt
    simp [decodeScalar?, decodeNat?, hbits]
  short := iff_of_true (by simp [maxLength]) trivial

theorem restores_uuid (u : Uuid) :
    Restores .uuid (.uuid u) (BigEndian.unsigned 16 u.number.toNat) where
  sent := rfl
  read := by
    have hnumber : BigEndian.toNat (BigEndian.unsigned 16 u.number.toNat) = u.number.toNat :=
      BigEndian.toNat_unsigned u.number.isLt
    simp [decodeScalar?, decodeNat?, hnumber, Uuid.ofNat]
  short := iff_of_true (by simp [maxLength]) trivial

theorem restores_text {s : Scalar} (h : s = .text ∨ s = .varchar) (t : String) :
    Restores s (.text t) (textBytes t) := by
  have hshort : (textBytes t).length ≤ maxLength ↔ IsShort (.text t) := by
    rw [length_textBytes, IsShort]
  have hread := congrArg (Option.map Value.text) (decodeText?_textBytes t)
  obtain rfl | rfl := h
  · exact ⟨rfl, hread, hshort⟩
  · exact ⟨rfl, hread, hshort⟩

section

variable {t : Timestamp} (hwhole : t.nanos % 1000 = 0)

include hwhole

/-- Nothing is cut off from a whole number of microseconds. -/
theorem micros_eq : t.micros = (t.seconds - Timestamp.millennium) * 1000000 + t.nanos / 1000 := by
  have hsplit : (t.seconds - Timestamp.millennium) * 1000000000 + (t.nanos : Int) =
      ((t.seconds - Timestamp.millennium) * 1000000 + (t.nanos : Int) / 1000) * 1000 := by omega
  rw [Timestamp.micros, hsplit, Int.mul_tdiv_cancel _ (by decide)]

/-- The microseconds of a moment count up to the moment, unless it is in a leap second. -/
theorem momentAfter?_micros (hleap : t.nanos < 1000000000) : momentAfter? t.micros = some t := by
  have hmicros := micros_eq hwhole
  have hseconds : Timestamp.millennium + t.micros / 1000000 = t.seconds := by omega
  have hnanos : (t.micros % 1000000).toNat * 1000 = t.nanos := by omega
  rw [momentAfter?, hseconds, hnanos, Timestamp.ofUnix?, dif_pos ⟨t.seconds_range, t.nanos_lt⟩]

theorem restores_moment (hleap : t.nanos < 1000000000) :
    Restores .timestamptz (.timestamp t) (BigEndian.signed 8 t.micros) where
  sent := rfl
  read := by
    have hmicros := micros_eq hwhole
    obtain ⟨hl, hu⟩ := t.seconds_range
    have hread : BigEndian.toInt (BigEndian.signed 8 t.micros) = t.micros := by
      apply BigEndian.toInt_signed <;> simp only [Timestamp.millennium] at hmicros <;> omega
    simp [decodeScalar?, decodeInt?, hread, momentAfter?_micros hwhole hleap]
  short := iff_of_true (by simp [maxLength]) trivial

end

/-- **A single value** that belongs to a type is sent, and reads back. -/
theorem encodeScalar_of_carries {s : Scalar} {v : Value} (h : s.Carries v) :
    ∃ bs, Restores s v bs := by
  cases h with
  | bool b => exact ⟨_, rfl, by cases b <;> rfl, iff_of_true (by simp [maxLength]) trivial⟩
  | int h => exact restores_int h
  | float x => exact ⟨_, restores_float x⟩
  | text t => exact ⟨_, restores_text (.inl rfl) t⟩
  | varchar t => exact ⟨_, restores_text (.inr rfl) t⟩
  | uuid u => exact ⟨_, restores_uuid u⟩
  | moment t hleap hwhole => exact ⟨_, restores_moment hwhole hleap⟩

/-! ### Arrays -/

/-- Null belongs to every type. -/
def Scalar.Belongs (s : Scalar) (v : Value) : Prop := v = .null ∨ s.Carries v

/-- A cell of an array reads back as an item. -/
def ReadsItem (item : Scalar) (v : Value) : Option Bytes → Prop
  | none => v = .null
  | some bs => bs.length ≤ maxLength ∧ decodeScalar? item bs = some v

/-- An item that belongs to the type of the array is sent, unless it is too long. -/
theorem encodeItem_of_belongs {item : Scalar} {v : Value} (h : item.Belongs v) :
    (∃ cell, encodeItem item v = .ok cell ∧ ReadsItem item v cell ∧ IsShort v) ∨
      encodeItem item v = .error .outOfRange ∧ ¬IsShort v := by
  obtain rfl | h := h
  · exact .inl ⟨none, rfl, rfl, trivial⟩
  obtain ⟨bs, hbs⟩ := encodeScalar_of_carries h
  by_cases hshort : bs.length ≤ maxLength
  · refine .inl ⟨some bs, ?_, ⟨hshort, hbs.read⟩, hbs.short.1 hshort⟩
    simp [encodeItem, hbs.sent, sent, hshort]
  · refine .inr ⟨?_, fun h => hshort (hbs.short.2 h)⟩
    simp [encodeItem, hbs.sent, sent, hshort]

/-- All items are sent, or one of them is too long. -/
theorem encodeItems_of_belongs {item : Scalar} {vs : List Value} (h : ∀ v ∈ vs, item.Belongs v) :
    (∃ cells, vs.mapM (encodeItem item) = .ok cells ∧ List.Forall₂ (ReadsItem item) vs cells ∧
        ∀ v ∈ vs, IsShort v) ∨
      vs.mapM (encodeItem item) = .error .outOfRange ∧ ¬∀ v ∈ vs, IsShort v := by
  induction vs with
  | nil => exact .inl ⟨[], rfl, .nil, by simp⟩
  | cons v vs ih =>
    obtain ⟨hv, hvs⟩ := List.forall_mem_cons.1 h
    rw [List.mapM_cons]
    obtain ⟨cell, hsent, hread, hshort⟩ | ⟨hrefused, hlong⟩ := encodeItem_of_belongs hv
    · obtain ⟨cells, hcells, hreads, hshorts⟩ | ⟨hrefused, hlong⟩ := ih hvs
      · refine .inl ⟨cell :: cells, ?_, .cons hread hreads,
          List.forall_mem_cons.2 ⟨hshort, hshorts⟩⟩
        rw [hsent, hcells]
        rfl
      · refine .inr ⟨?_, fun hall => hlong (List.forall_mem_cons.1 hall).2⟩
        rw [hsent, hrefused]
        rfl
    · refine .inr ⟨?_, fun hall => hlong (List.forall_mem_cons.1 hall).1⟩
      rw [hrefused]
      rfl

/-- The cells of an array, each behind its length, are read one by one. -/
theorem items?_itemBytes {item : Scalar} {vs : List Value} {cells : List (Option Bytes)}
    (h : List.Forall₂ (ReadsItem item) vs cells) :
    items? item cells.length (cells.flatMap itemBytes) = some vs := by
  induction h with
  | nil => rfl
  | @cons v cell vs cells hread _ ih =>
    cases cell with
    | none =>
      obtain rfl := hread
      have hlength : BigEndian.toNat (BigEndian.signed 4 (-1)) = 0xFFFFFFFF := by decide
      simp [items?, itemBytes, number?_append, hlength, ih]
    | some bs =>
      obtain ⟨hshort, hvalue⟩ := hread
      have hlength : BigEndian.toNat (BigEndian.signed 4 (bs.length : Int)) = bs.length :=
        toNat_signed (by simp only [maxLength] at hshort; omega)
      have hnull : ¬0x80000000 ≤ bs.length := by simp only [maxLength] at hshort; omega
      simp [items?, itemBytes, List.append_assoc, number?_append, hlength, hnull, hvalue, ih]

/-- **An array** whose cells read back reads back. -/
theorem decodeArray?_arrayBytes {item : Scalar} {vs : List Value} {cells : List (Option Bytes)}
    (hlength : vs.length ≤ maxLength) (h : List.Forall₂ (ReadsItem item) vs cells) :
    decodeArray? item (arrayBytes item cells) = some (.array vs) := by
  have hcells : cells.length ≤ maxLength := h.length_eq ▸ hlength
  have hone : BigEndian.toNat (BigEndian.signed 4 1) = 1 := by decide
  have hsize : BigEndian.toNat (BigEndian.signed 4 (cells.length : Int)) = cells.length :=
    toNat_signed (by simp only [maxLength] at hcells; omega)
  have hbound : cells.length < 0x80000000 := by simp only [maxLength] at hcells; omega
  simp [decodeArray?, arrayBytes, List.append_assoc, number?_append, hone, hsize, dimensions?,
    hbound, items?_itemBytes h]

/-! ### The round trip -/

/-- The values that belong to a type: null, single values, and arrays of what belongs to the type of
the items. -/
inductive Kind.Carries : Kind → Value → Prop
  | scalar {s : Scalar} {v : Value} (hs : s ∈ Scalar.carrying) (h : s.Belongs v) :
      Carries (.scalar s) v
  | noArray {item : Scalar} (hitem : item ∈ Scalar.inArrays) : Carries (.array item) .null
  | array {item : Scalar} {vs : List Value} (hitem : item ∈ Scalar.inArrays)
      (h : ∀ v ∈ vs, item.Belongs v) : Carries (.array item) (.array vs)

/-- The lengths of a value are within what the form of an array has room for. -/
def HasRoom : Value → Prop
  | .array vs => vs.length ≤ maxLength ∧ ∀ v ∈ vs, IsShort v
  | _ => True

theorem isReadable_array {item : Scalar} (h : item ∈ Scalar.inArrays) :
    (Kind.array item).isReadable = true :=
  List.contains_iff_mem.2 h

theorem decode_encode_scalar {s : Scalar} {v : Value} (hs : s ∈ Scalar.carrying)
    (h : s.Belongs v) :
    ∃ cell, encode (.scalar s) v = .ok cell ∧ decode? (.scalar s) cell = some v := by
  have hr := isReadable_of_mem hs
  obtain rfl | h := h
  · exact ⟨none, rfl, by simp [decode?, hr]⟩
  · obtain ⟨bs, hbs⟩ := encodeScalar_of_carries h
    exact ⟨some bs, hbs.sent, by simp [decode?, hr, hbs.read]⟩

theorem decode_encode_array {item : Scalar} {vs : List Value} (hitem : item ∈ Scalar.inArrays)
    (h : ∀ v ∈ vs, item.Belongs v) :
    (HasRoom (.array vs) → ∃ cell, encode (.array item) (.array vs) = .ok cell ∧
        decode? (.array item) cell = some (.array vs)) ∧
      (¬HasRoom (.array vs) → encode (.array item) (.array vs) = .error .outOfRange) := by
  by_cases hlength : vs.length ≤ maxLength
  · obtain ⟨cells, hcells, hreads, hshort⟩ | ⟨hrefused, hlong⟩ := encodeItems_of_belongs h
    · refine ⟨fun _ => ⟨some (arrayBytes item cells), ?_, ?_⟩,
        fun hroom => absurd ⟨hlength, hshort⟩ hroom⟩
      · simp only [encode, if_pos hlength, hcells]
        rfl
      · simp [decode?, isReadable_array hitem, decodeArray?_arrayBytes hlength hreads]
    · refine ⟨fun hroom => absurd hroom.2 hlong, fun _ => ?_⟩
      simp only [encode, if_pos hlength, hrefused]
      rfl
  · exact ⟨fun hroom => absurd hroom.1 hlength, fun _ => if_neg hlength⟩

/-- **The round trip.** A value that belongs to a type is encoded for it, and the cell reads back as
the value; only an array that its form has no room for is refused. An integer that does not belong
to an integer type is refused there. -/
theorem decode_encode :
    (∀ (k : Kind) (v : Value), k.Carries v →
        (HasRoom v → ∃ cell, encode k v = .ok cell ∧ decode? k cell = some v) ∧
          (¬HasRoom v → encode k v = .error .outOfRange)) ∧
      ∀ (k : IntegerColumn) (n : Int64), ¬k.Holds n.toInt →
        encode (.scalar k.scalar) (.int n) = .error .outOfRange := by
  refine ⟨fun k v h => ?_, fun k n h => encodeInt_of_not_holds h⟩
  cases h with
  | @scalar s v hs h =>
    have hroom : HasRoom v := by
      obtain rfl | h := h
      · trivial
      · cases h <;> trivial
    exact ⟨fun _ => decode_encode_scalar hs h, absurd hroom⟩
  | noArray hitem =>
    refine ⟨fun _ => ⟨none, rfl, ?_⟩, absurd trivial⟩
    simp [decode?, isReadable_array hitem]
  | array hitem h => exact decode_encode_array hitem h

/-- An array of texts with a null among them, and a number that is too large for two bytes. -/
theorem decode_encode_texts :
    let vs : List Value := [.text "a", .null, .text "ü"]
    (Kind.array .text).Carries (.array vs) ∧ HasRoom (.array vs) ∧
      (∃ cell, encode (.array .text) (.array vs) = .ok cell ∧
        decode? (.array .text) cell = some (.array vs)) ∧
      ¬IntegerColumn.int2.Holds (40000 : Int64).toInt ∧
      encode (.scalar .int2) (.int 40000) = .error .outOfRange := by
  intro vs
  have hbelongs : ∀ v ∈ vs, Scalar.text.Belongs v :=
    List.forall_mem_cons.2 ⟨.inr (.text _), List.forall_mem_cons.2
      ⟨.inl rfl, List.forall_mem_cons.2 ⟨.inr (.text _), nofun⟩⟩⟩
  have hcarries : (Kind.array .text).Carries (.array vs) := .array (by decide) hbelongs
  have ha : "a".utf8ByteSize ≤ maxLength := by decide
  have hu : "ü".utf8ByteSize ≤ maxLength := by decide
  have hshort : ∀ v ∈ vs, IsShort v :=
    List.forall_mem_cons.2 ⟨ha, List.forall_mem_cons.2
      ⟨trivial, List.forall_mem_cons.2 ⟨hu, nofun⟩⟩⟩
  have hroom : HasRoom (.array vs) := ⟨by decide, hshort⟩
  have hbeyond : ¬IntegerColumn.int2.Holds (40000 : Int64).toInt := fun h =>
    absurd h.2 (by decide)
  exact ⟨hcarries, hroom, (decode_encode.1 _ _ hcarries).1 hroom, hbeyond,
    decode_encode.2 .int2 40000 hbeyond⟩

end Postgres

end ActiveRow
