import Mathlib.Algebra.Order.BigOperators.Group.List
import Mathlib.Data.List.Basic
import Mathlib.Data.Nat.Size
import Mathlib.Tactic.Ring

/-!
# Protocol buffers on the wire

A message is written as its fields, each with a tag of its number and its wire type, and is read
field by field into a value that has the defaults at first. A field that the reader does not know
is skipped. `Case` is how a field is read, and `Schema` what the reader of a message knows.

The bytes are read from the front, so the index of the reader is the length of the whole less
what is still to be read. Go's `int` has 64 bits, and a slice whose end has run over panics.

`Reads` says what bytes do to a value, whatever comes after them. It composes along the fields,
and each way to write a field has its rule. A `Codec` is a message that fills the bytes its size
promises and is read back from them.
-/

namespace TracerBench

/-- Why a message could not be read. -/
inductive WireError where
  | intOverflow
  | unexpectedEOF
  | invalidLength
  | endGroup (message : String)
  | unexpectedEndOfGroup
  | illegalTag (message : String) (fieldNum : ℤ) (wire : ℕ)
  | wrongWireType (wireType : ℕ) (field : String)
  | illegalWireType (wireType : ℕ)
  | panic
  deriving DecidableEq

namespace Wire

theorem bind_eq_ok {ε α β : Type} {x : Except ε α} {f : α → Except ε β} {b : β} :
    (x >>= f) = .ok b ↔ ∃ a, x = .ok a ∧ f a = .ok b := by
  cases x <;> simp [bind, Except.bind]

/-! ## Varints -/

def encodeVarintFrom : ℕ → ℕ → List UInt8
  | 0, v => [v.toUInt8]
  | n + 1, v =>
    if v < 128 then [v.toUInt8] else (v % 128 + 128).toUInt8 :: encodeVarintFrom n (v / 128)

/-- The groups of seven bits of a `uint64`, the lowest first. There are at most ten. -/
def encodeVarint (v : ℕ) : List UInt8 :=
  encodeVarintFrom 9 v

def sovFrom : ℕ → ℕ → ℕ
  | 0, _ => 1
  | n + 1, x => if x / 128 = 0 then 1 else sovFrom n (x / 128) + 1

/-- How many groups there are. -/
def sov (x : ℕ) : ℕ :=
  sovFrom 9 x

/-- A varint into a `uint64`, and the bytes after it. -/
def readVarint (shift wire : ℕ) : List UInt8 → Except WireError (ℕ × List UInt8)
  | [] => .error (if 64 ≤ shift then .intOverflow else .unexpectedEOF)
  | b :: bytes =>
    if 64 ≤ shift then .error .intOverflow
    else
      let wire := (wire ||| (b.toNat % 128) <<< shift) % 2 ^ 64
      if b.toNat < 128 then .ok (wire, bytes) else readVarint (shift + 7) wire bytes

theorem length_encodeVarintFrom (n v : ℕ) : (encodeVarintFrom n v).length = sovFrom n v := by
  induction n generalizing v with
  | zero => rfl
  | succ n ih =>
    have hsmall : v / 128 = 0 ↔ v < 128 := Nat.div_eq_zero_iff_lt (by norm_num)
    unfold encodeVarintFrom sovFrom
    simp only [hsmall]
    split_ifs
    · rfl
    · rw [List.length_cons, ih]

@[simp] theorem length_encodeVarint (v : ℕ) : (encodeVarint v).length = sov v :=
  length_encodeVarintFrom 9 v

/-- Seven bits to a group, and none of them empty at the end. -/
theorem sovFrom_bounds (n x : ℕ) (hx : x < 2 ^ (7 * (n + 1))) :
    x < 2 ^ (7 * sovFrom n x) ∧ 0 < sovFrom n x ∧
      (1 < sovFrom n x → 2 ^ (7 * (sovFrom n x - 1)) ≤ x) := by
  induction n generalizing x with
  | zero => exact ⟨hx, Nat.zero_lt_one, fun h => absurd h (lt_irrefl 1)⟩
  | succ n ih =>
    unfold sovFrom
    split_ifs with hsmall
    · have hlt : x < 128 := (Nat.div_eq_zero_iff_lt (by norm_num)).1 hsmall
      exact ⟨hlt, Nat.zero_lt_one, fun h => absurd h (lt_irrefl 1)⟩
    · have hpow : ∀ k, 2 ^ (7 * (k + 1)) = 2 ^ (7 * k) * 128 := fun k => by ring
      rw [hpow] at hx
      obtain ⟨hlt, hpos, hge⟩ := ih (x / 128) (Nat.div_lt_of_lt_mul (by omega))
      refine ⟨?_, Nat.succ_pos _, fun _ => ?_⟩
      · rw [hpow]
        omega
      · rw [Nat.add_sub_cancel]
        rcases Nat.lt_or_ge 1 (sovFrom n (x / 128)) with hmore | hone
        · have hge := hge hmore
          have hsplit : sovFrom n (x / 128) = sovFrom n (x / 128) - 1 + 1 := by omega
          rw [hsplit, hpow]
          omega
        · have hone : sovFrom n (x / 128) = 1 := by omega
          rw [hone]
          omega

/-- The groups are counted from the bits, of which there is always one. -/
theorem sov_eq_size {x : ℕ} (hx : x < 2 ^ 64) : sov x = (Nat.size (x ||| 1) + 6) / 7 := by
  obtain ⟨hlt, hpos, hge⟩ := sovFrom_bounds 9 x (by omega)
  have hone : 1 < 2 ^ (7 * sovFrom 9 x) := Nat.one_lt_two_pow (by omega)
  have hle : Nat.size (x ||| 1) ≤ 7 * sovFrom 9 x :=
    Nat.size_le.2 (Nat.or_lt_two_pow hlt hone)
  have hsize : 7 * (sovFrom 9 x - 1) < Nat.size (x ||| 1) := by
    rw [Nat.lt_size]
    rcases Nat.lt_or_ge 1 (sovFrom 9 x) with hmore | hone
    · exact (hge hmore).trans Nat.left_le_or
    · have hbase : sovFrom 9 x - 1 = 0 := by omega
      rw [hbase]
      exact Nat.right_le_or
  unfold sov
  omega

/-- The next group goes above those read so far. -/
theorem or_group {wire g shift : ℕ} (hwire : wire < 2 ^ shift)
    (hfits : wire + g * 2 ^ shift < 2 ^ 64) :
    (wire ||| g <<< shift) % 2 ^ 64 = wire + g * 2 ^ shift := by
  rw [Nat.or_comm, ← Nat.shiftLeft_add_eq_or_of_lt hwire, Nat.shiftLeft_eq, Nat.add_comm,
    Nat.mod_eq_of_lt hfits]

theorem readVarint_last {wire v shift : ℕ} (hwire : wire < 2 ^ shift) (hshift : shift < 64)
    (hfits : wire + v * 2 ^ shift < 2 ^ 64) (hsmall : v < 128) (rest : List UInt8) :
    readVarint shift wire (v.toUInt8 :: rest) = .ok (wire + v * 2 ^ shift, rest) := by
  have hb : v.toUInt8.toNat = v := by
    simp only [UInt8.toNat_ofNat']
    omega
  rw [readVarint, if_neg (by omega)]
  simp only [hb, if_pos hsmall, Nat.mod_eq_of_lt hsmall, or_group hwire hfits]

theorem readVarint_encodeVarintFrom (rest : List UInt8) (n : ℕ) (hn : n ≤ 9) (wire v : ℕ)
    (hwire : wire < 2 ^ (7 * (9 - n))) (hfits : wire + v * 2 ^ (7 * (9 - n)) < 2 ^ 64) :
    readVarint (7 * (9 - n)) wire (encodeVarintFrom n v ++ rest) =
      .ok (wire + v * 2 ^ (7 * (9 - n)), rest) := by
  induction n generalizing wire v with
  | zero => exact readVarint_last hwire (by omega) hfits (by omega) rest
  | succ n ih =>
    unfold encodeVarintFrom
    split_ifs with hsmall
    · exact readVarint_last hwire (by omega) hfits hsmall rest
    · obtain ⟨shift, hshift⟩ : ∃ shift, shift = 7 * (9 - (n + 1)) := ⟨_, rfl⟩
      have hnext : 7 * (9 - n) = shift + 7 := by omega
      have hpow : 2 ^ (shift + 7) = 128 * 2 ^ shift := by ring
      have hsplit : v * 2 ^ shift = v % 128 * 2 ^ shift + v / 128 * (128 * 2 ^ shift) := by
        conv_lhs => rw [← Nat.mod_add_div v 128]
        ring
      rw [← hshift] at hwire hfits ⊢
      rw [hnext, hpow] at ih
      have hgroup : wire + v % 128 * 2 ^ shift < 128 * 2 ^ shift := by
        have hle : v % 128 * 2 ^ shift ≤ 127 * 2 ^ shift := Nat.mul_le_mul_right _ (by omega)
        omega
      have hb : (v % 128 + 128).toUInt8.toNat = v % 128 + 128 := by
        simp only [UInt8.toNat_ofNat']
        omega
      have hmod : (v % 128 + 128) % 128 = v % 128 := by omega
      rw [List.cons_append, readVarint, if_neg (by omega)]
      simp only [hb, hmod]
      rw [or_group hwire (by omega), if_neg (by omega), ih (by omega) _ _ hgroup (by omega), hsplit,
        Nat.add_assoc]

/-- A varint is read back. -/
theorem readVarint_encodeVarint {v : ℕ} (hv : v < 2 ^ 64) (rest : List UInt8) :
    readVarint 0 0 (encodeVarint v ++ rest) = .ok (v, rest) := by
  have h := readVarint_encodeVarintFrom rest 9 le_rfl 0 v (by norm_num) (by simpa using hv)
  simpa [encodeVarint] using h

theorem readVarint_length {bytes : List UInt8} : ∀ {shift wire v : ℕ} {rest : List UInt8},
    readVarint shift wire bytes = .ok (v, rest) → rest.length < bytes.length := by
  induction bytes with
  | nil =>
    intro shift wire v rest h
    simp [readVarint] at h
  | cons b bytes ih =>
    intro shift wire v rest h
    simp only [readVarint] at h
    split_ifs at h with hshift hlast
    · obtain ⟨-, rfl⟩ := Prod.mk.inj (Except.ok.inj h)
      exact Nat.lt_succ_self _
    · exact (ih h).trans (Nat.lt_succ_self _)

/-- A number that goes as a `uint64`. -/
class Scalar (α : Type) where
  toWire : α → UInt64
  ofWire : UInt64 → α
  ofWire_toWire : ∀ a, ofWire (toWire a) = a

instance : Scalar UInt64 where
  toWire := id
  ofWire := id
  ofWire_toWire _ := rfl

instance : Scalar Int64 where
  toWire := Int64.toUInt64
  ofWire := UInt64.toInt64
  ofWire_toWire := Int64.toInt64_toUInt64

/-- The sign is extended to the upper half. -/
instance : Scalar Int32 where
  toWire a := a.toInt64.toUInt64
  ofWire w := w.toInt64.toInt32
  ofWire_toWire a := by rw [Int64.toInt64_toUInt64, Int32.toInt32_toInt64]

instance : Scalar Bool where
  toWire b := if b then 1 else 0
  ofWire w := w ≠ 0
  ofWire_toWire b := by cases b <;> rfl

theorem Scalar.toWire_eq_zero {α : Type} [Scalar α] {zero a : α} (hzero : toWire zero = 0) :
    toWire a = 0 ↔ a = zero := by
  refine ⟨fun h => ?_, fun h => h ▸ hzero⟩
  rw [← ofWire_toWire a, h, ← hzero, ofWire_toWire]

/-- `binary.LittleEndian`, `n` bytes. -/
def putFixed : ℕ → ℕ → List UInt8
  | 0, _ => []
  | n + 1, v => (v % 256).toUInt8 :: putFixed n (v / 256)

def readFixed : List UInt8 → ℕ
  | [] => 0
  | b :: bytes => b.toNat + 256 * readFixed bytes

@[simp] theorem length_putFixed (n v : ℕ) : (putFixed n v).length = n := by
  induction n generalizing v with
  | zero => rfl
  | succ n ih => rw [putFixed, List.length_cons, ih]

theorem readFixed_putFixed (n v : ℕ) (hv : v < 256 ^ n) : readFixed (putFixed n v) = v := by
  induction n generalizing v with
  | zero =>
    rw [pow_zero] at hv
    rw [putFixed, readFixed]
    omega
  | succ n ih =>
    have hhigh : v / 256 < 256 ^ n := by
      rw [pow_succ] at hv
      exact Nat.div_lt_of_lt_mul (by omega)
    have hlow : (v % 256).toUInt8.toNat = v % 256 := by
      simp only [UInt8.toNat_ofNat']
      omega
    rw [putFixed, readFixed, ih _ hhigh, hlow]
    omega

/-! ## Reading a message -/

/-- The next `n` bytes of a message of `l` bytes, and those after them. -/
def takeBytes (l n : ℕ) (bytes : List UInt8) : Except WireError (List UInt8 × List UInt8) :=
  if 2 ^ 63 ≤ n then .error .invalidLength
  else if 2 ^ 63 ≤ l - bytes.length + n then .error .panic
  else if bytes.length < n then .error .unexpectedEOF
  else .ok (bytes.take n, bytes.drop n)

theorem takeBytes_length {l n : ℕ} {bytes data rest : List UInt8}
    (h : takeBytes l n bytes = .ok (data, rest)) : rest.length ≤ bytes.length := by
  unfold takeBytes at h
  split_ifs at h
  cases h
  simp

theorem takeBytes_append {l : ℕ} {data rest : List UInt8} (hl : (data ++ rest).length ≤ l)
    (hbig : l < 2 ^ 63) : takeBytes l data.length (data ++ rest) = .ok (data, rest) := by
  rw [List.length_append] at hl
  unfold takeBytes
  rw [List.length_append, if_neg (by omega), if_neg (by omega), if_neg (by omega),
    List.take_left, List.drop_left]

/-- A length and as many bytes. -/
def readBytes (l : ℕ) (bytes : List UInt8) : Except WireError (List UInt8 × List UInt8) := do
  let (n, bytes) ← readVarint 0 0 bytes
  takeBytes l n bytes

theorem readBytes_length {l : ℕ} {bytes data rest : List UInt8}
    (h : readBytes l bytes = .ok (data, rest)) : rest.length < bytes.length := by
  obtain ⟨⟨n, bytes'⟩, hn, h⟩ := bind_eq_ok.1 h
  exact (takeBytes_length h).trans_lt (readVarint_length hn)

theorem readBytes_append {l : ℕ} {data rest : List UInt8}
    (hl : (encodeVarint data.length ++ data ++ rest).length ≤ l) (hbig : l < 2 ^ 63) :
    readBytes l (encodeVarint data.length ++ data ++ rest) = .ok (data, rest) := by
  have hdata : (data ++ rest).length ≤ l := by
    simp only [List.length_append] at hl ⊢
    omega
  have hlen : data.length < 2 ^ 64 := by
    rw [List.length_append] at hdata
    omega
  rw [List.append_assoc]
  exact bind_eq_ok.2 ⟨_, readVarint_encodeVarint hlen _, takeBytes_append hdata hbig⟩

/-- How a field is read into a value, from what is left of a message of `l` bytes. -/
structure Case (M : Type) where
  wireType : ℕ
  field : String
  read : ℕ → List UInt8 → M → Except WireError (M × List UInt8)
  shorter : ∀ {l : ℕ} {bytes rest : List UInt8} {m m' : M},
    read l bytes m = .ok (m', rest) → rest.length ≤ bytes.length

namespace Case

variable {M : Type}

/-- A number. -/
def scalar {α : Type} [Scalar α] (field : String) (set : α → M → M) : Case M where
  wireType := 0
  field := field
  read _ bytes m := do
    let (v, bytes) ← readVarint 0 0 bytes
    return (set (Scalar.ofWire v.toUInt64) m, bytes)
  shorter := by
    intro l bytes rest m m' h
    obtain ⟨⟨v, rest'⟩, hv, h⟩ := bind_eq_ok.1 h
    cases h
    exact (readVarint_length hv).le

/-- Eight bytes. -/
def fixed64 (field : String) (set : UInt64 → M → M) : Case M where
  wireType := 1
  field := field
  read _ bytes m :=
    if bytes.length < 8 then .error .unexpectedEOF
    else .ok (set (readFixed (bytes.take 8)).toUInt64 m, bytes.drop 8)
  shorter := by
    intro l bytes rest m m' h
    split_ifs at h
    cases h
    simp

/-- A length and as many bytes, which may be refused. -/
def bytes (field : String) (set : List UInt8 → M → Except WireError M) : Case M where
  wireType := 2
  field := field
  read l bytes m := do
    let (data, bytes) ← readBytes l bytes
    return (← set data m, bytes)
  shorter := by
    intro l bytes rest m m' h
    obtain ⟨⟨data, rest'⟩, hdata, h⟩ := bind_eq_ok.1 h
    obtain ⟨m₁, -, h⟩ := bind_eq_ok.1 h
    cases h
    exact (readBytes_length hdata).le

def string (field : String) (set : List UInt8 → M → M) : Case M :=
  .bytes field fun data m => .ok (set data m)

end Case

/-- The number of a field is an `int32`. -/
def fieldNumber (wire : ℕ) : ℤ :=
  Int.bmod (wire / 8 : ℕ) (2 ^ 32)

theorem fieldNumber_small {wire : ℕ} (h : wire < 2 ^ 34) : fieldNumber wire = (wire / 8 : ℕ) := by
  unfold fieldNumber
  rw [Int.bmod_eq_of_le] <;> omega

abbrev FieldNum := {num : ℕ // 0 < num ∧ num < 2 ^ 29}

mutual

/-- What a field of any message may hold. -/
inductive Content where
  | varint (v : UInt64)
  | fixed64 (v : UInt64)
  | bytes (data : List UInt8)
  | group (fields : Fields)
  | fixed32 (v : UInt32)

inductive Fields where
  | nil
  | cons (num : FieldNum) (content : Content) (fields : Fields)

end

/-- The wire type of what a field holds. -/
def Content.wireType : Content → ℕ
  | .varint _ => 0
  | .fixed64 _ => 1
  | .bytes _ => 2
  | .group _ => 3
  | .fixed32 _ => 5

def tagOf (num : FieldNum) (wireType : ℕ) : List UInt8 :=
  encodeVarint (8 * num.1 + wireType)

mutual

/-- What stands behind the tag. -/
def Content.data (num : FieldNum) : Content → List UInt8
  | .varint v => encodeVarint v.toNat
  | .fixed64 v => putFixed 8 v.toNat
  | .bytes data => encodeVarint data.length ++ data
  | .group fields => fields.encode ++ tagOf num 4
  | .fixed32 v => putFixed 4 v.toNat

def Fields.encode : Fields → List UInt8
  | .nil => []
  | .cons num content fields => tagOf num content.wireType ++ content.data num ++ fields.encode

end

def Content.encode (num : FieldNum) (content : Content) : List UInt8 :=
  tagOf num content.wireType ++ content.data num

theorem Fields.encode_cons (num : FieldNum) (content : Content) (fields : Fields) :
    (Fields.cons num content fields).encode = content.encode num ++ fields.encode :=
  rfl

theorem readVarint_tagOf (num : FieldNum) {wireType : ℕ} (htype : wireType < 8)
    (rest : List UInt8) :
    readVarint 0 0 (tagOf num wireType ++ rest) = .ok (8 * num.1 + wireType, rest) := by
  have hnum := num.2
  exact readVarint_encodeVarint (by omega) rest

theorem Content.wireType_lt (content : Content) : content.wireType < 8 := by
  cases content <;> simp [wireType]

/-- A field has a tag that ends no group, and takes at least that. -/
theorem Content.readVarint_encode (num : FieldNum) (content : Content) (rest : List UInt8) :
    readVarint 0 0 (content.encode num ++ rest) =
        .ok (8 * num.1 + content.wireType, content.data num ++ rest) ∧
      (8 * num.1 + content.wireType) % 8 ≠ 4 ∧ 0 < (content.encode num).length := by
  have hread : readVarint 0 0 (content.encode num ++ rest) =
      .ok (8 * num.1 + content.wireType, content.data num ++ rest) := by
    rw [encode, List.append_assoc]
    exact readVarint_tagOf num content.wireType_lt _
  refine ⟨hread, ?_, ?_⟩
  · cases content <;> simp only [wireType] <;> omega
  · have hlen := readVarint_length hread
    rw [encode] at hlen ⊢
    simp only [List.length_append] at hlen ⊢
    omega

/-- A way over a field, to the index after it, and what is said when an index has run over. -/
structure Skip where
  run : List UInt8 → Except WireError ℤ
  overrun : WireError
  run_ne_zero : ∀ bytes, bytes.length < 2 ^ 63 → run bytes ≠ .ok 0
  run_encode : ∀ num (content : Content) rest, (content.encode num ++ rest).length < 2 ^ 63 →
    run (content.encode num ++ rest) = .ok (content.encode num).length

/-- What the reader of a message knows. -/
structure Schema (M : Type) where
  name : String
  cases : ℕ → Option (Case M)
  skip : Skip

variable {M : Type}

/-- One pass of the loop of `Unmarshal` : a field of a message of `l` bytes. -/
def Schema.pass (s : Schema M) (l : ℕ) (bytes : List UInt8) (m : M) :
    Except WireError (M × List UInt8) := do
  let (wire, rest) ← readVarint 0 0 bytes
  let fieldNum := fieldNumber wire
  if wire % 8 = 4 then .error (.endGroup s.name)
  else if fieldNum ≤ 0 then .error (.illegalTag s.name fieldNum wire)
  else
    match s.cases fieldNum.toNat with
    | some c =>
      if wire % 8 ≠ c.wireType then .error (.wrongWireType (wire % 8) c.field)
      else c.read l rest m
    | none =>
      let skippy ← s.skip.run bytes
      -- a field takes at least its tag
      if skippy ≤ 0 then .error .invalidLength
      else if 2 ^ 63 ≤ l - bytes.length + skippy.toNat then .error s.skip.overrun
      else if bytes.length < skippy.toNat then .error .unexpectedEOF
      else .ok (m, bytes.drop skippy.toNat)

/-- Only a length that has run over is refused. -/
theorem Schema.pass_skip {s : Schema M} {l wire : ℕ} {bytes rest : List UInt8} {m : M}
    (hread : readVarint 0 0 bytes = .ok (wire, rest)) (hend : wire % 8 ≠ 4)
    (hnum : 0 < fieldNumber wire) (hcase : s.cases (fieldNumber wire).toNat = none)
    (hbig : bytes.length < 2 ^ 63) :
    s.pass l bytes m = (do
      let skippy ← s.skip.run bytes
      if skippy < 0 then .error .invalidLength
      else if 2 ^ 63 ≤ l - bytes.length + skippy.toNat then .error s.skip.overrun
      else if bytes.length < skippy.toNat then .error .unexpectedEOF
      else .ok (m, bytes.drop skippy.toNat)) := by
  unfold pass
  rw [hread]
  simp only [bind, Except.bind, if_neg hend, if_neg (not_le.2 hnum), hcase]
  cases hrun : s.skip.run bytes with
  | error e => rfl
  | ok skippy =>
    have hne : skippy ≠ 0 := by
      rintro rfl
      exact s.skip.run_ne_zero bytes hbig hrun
    have hle : skippy ≤ 0 ↔ skippy < 0 := by omega
    simp only [hle]

theorem Schema.pass_length {s : Schema M} {l : ℕ} {bytes rest : List UInt8} {m m' : M}
    (h : s.pass l bytes m = .ok (m', rest)) : rest.length < bytes.length := by
  obtain ⟨⟨wire, bytes'⟩, hwire, h⟩ := bind_eq_ok.1 h
  have hshorter := readVarint_length hwire
  simp only at h
  split_ifs at h
  split at h
  · next c hc =>
    split_ifs at h
    exact (c.shorter h).trans_lt hshorter
  · obtain ⟨skippy, -, h⟩ := bind_eq_ok.1 h
    split_ifs at h
    cases h
    rw [List.length_drop]
    omega

/-- Reads what is left of a message of `l` bytes. -/
def Schema.unmarshalFrom (s : Schema M) (l : ℕ) (bytes : List UInt8) (m : M) :
    Except WireError M :=
  if bytes = [] then .ok m
  else
    match _h : s.pass l bytes m with
    | .error e => .error e
    | .ok (m', rest) => s.unmarshalFrom l rest m'
termination_by bytes.length
decreasing_by exact Schema.pass_length _h

/-- `Unmarshal`. -/
def Schema.unmarshal (s : Schema M) (bytes : List UInt8) (m : M) : Except WireError M :=
  s.unmarshalFrom bytes.length bytes m

variable {s : Schema M} {l : ℕ} {m m' m'' : M}

@[simp] theorem unmarshalFrom_nil : s.unmarshalFrom l [] m = .ok m := by
  rw [Schema.unmarshalFrom, if_pos rfl]

theorem unmarshalFrom_pass {bytes rest : List UInt8} (h : s.pass l bytes m = .ok (m', rest)) :
    s.unmarshalFrom l bytes m = s.unmarshalFrom l rest m' := by
  have hne : bytes ≠ [] := by
    rintro rfl
    exact absurd (Schema.pass_length h) (Nat.not_lt_zero _)
  rw [Schema.unmarshalFrom, if_neg hne]
  split
  · next e he => simp [h] at he
  · next m₁ rest₁ he =>
    obtain ⟨rfl, rfl⟩ := Prod.mk.inj (Except.ok.inj (h.symm.trans he))
    rfl

/-- A tag of one byte, of a field that has a number. -/
def IsTag (tag : UInt8) (wireType : ℕ) : Prop :=
  tag.toNat % 8 = wireType ∧ 8 ≤ tag.toNat ∧ tag.toNat < 128

instance (tag : UInt8) (wireType : ℕ) : Decidable (IsTag tag wireType) :=
  inferInstanceAs (Decidable (_ ∧ _))

theorem readVarint_tag {tag : UInt8} (htag : tag.toNat < 128) (rest : List UInt8) :
    readVarint 0 0 (tag :: rest) = .ok (tag.toNat, rest) := by
  have h := @readVarint_last 0 tag.toNat 0 (by omega) (by omega) (by omega) htag rest
  simpa using h

/-- A field that the reader knows. -/
theorem pass_case {tag : UInt8} {bytes rest : List UInt8} {c : Case M}
    (htag : IsTag tag c.wireType) (hend : c.wireType ≠ 4)
    (hcase : s.cases (tag.toNat / 8) = some c) (hread : c.read l bytes m = .ok (m', rest)) :
    s.pass l (tag :: bytes) m = .ok (m', rest) := by
  obtain ⟨htype, hnum, hsmall⟩ := htag
  refine bind_eq_ok.2 ⟨_, readVarint_tag hsmall bytes, ?_⟩
  have hfield : fieldNumber tag.toNat = (tag.toNat / 8 : ℕ) := fieldNumber_small (by omega)
  simp only [hfield, Int.toNat_natCast, hcase, htype]
  rw [if_neg hend, if_neg (by omega), if_neg (by simp), hread]

/-! ## What bytes do to a value -/

/-- Whatever comes after them, the bytes take `m` to `m'`. -/
def Reads (s : Schema M) (bytes : List UInt8) (m m' : M) : Prop :=
  ∀ l rest, (bytes ++ rest).length ≤ l → l < 2 ^ 63 →
    s.unmarshalFrom l (bytes ++ rest) m = s.unmarshalFrom l rest m'

namespace Reads

theorem nil : Reads s [] m m :=
  fun _ _ _ _ => rfl

theorem append {a b : List UInt8} (ha : Reads s a m m') (hb : Reads s b m' m'') :
    Reads s (a ++ b) m m'' := by
  intro l rest hl hbig
  rw [List.append_assoc] at hl ⊢
  have hrest : (b ++ rest).length ≤ l := by
    rw [List.length_append] at hl
    omega
  rw [ha l (b ++ rest) hl hbig, hb l rest hrest hbig]

/-- A message that the bytes fill is read back. -/
theorem unmarshal {bytes : List UInt8} (h : Reads s bytes m m') (hlen : bytes.length < 2 ^ 63) :
    s.unmarshal bytes m = .ok m' := by
  have hall := h bytes.length [] (by simp) hlen
  rwa [List.append_nil, unmarshalFrom_nil] at hall

variable {tag : UInt8} {name : String}

theorem ofCase {c : Case M} {bytes : List UInt8} (htag : IsTag tag c.wireType)
    (hend : c.wireType ≠ 4) (hcase : s.cases (tag.toNat / 8) = some c)
    (hread : ∀ l rest, (bytes ++ rest).length ≤ l → l < 2 ^ 63 →
      c.read l (bytes ++ rest) m = .ok (m', rest)) : Reads s (tag :: bytes) m m' := by
  intro l rest hl hbig
  have hle : (bytes ++ rest).length ≤ l := by
    rw [List.cons_append, List.length_cons] at hl
    omega
  exact unmarshalFrom_pass (pass_case htag hend hcase (hread l rest hle hbig))

theorem scalar {α : Type} [Scalar α] (set : α → M → M) (a : α) (htag : IsTag tag 0)
    (hcase : s.cases (tag.toNat / 8) = some (.scalar name set)) :
    Reads s (tag :: encodeVarint (Scalar.toWire a).toNat) m (set a m) := by
  refine ofCase htag (by simp [Case.scalar]) hcase fun l rest _ _ => ?_
  refine bind_eq_ok.2 ⟨_, readVarint_encodeVarint (UInt64.toNat_lt _) rest, ?_⟩
  simp [Scalar.ofWire_toWire, pure, Except.pure]

theorem fixed64 (set : UInt64 → M → M) (v : UInt64) (htag : IsTag tag 1)
    (hcase : s.cases (tag.toNat / 8) = some (.fixed64 name set)) :
    Reads s (tag :: putFixed 8 v.toNat) m (set v m) := by
  refine ofCase htag (by simp [Case.fixed64]) hcase fun l rest _ _ => ?_
  have hlen := length_putFixed 8 v.toNat
  have hv : (readFixed (putFixed 8 v.toNat)).toUInt64 = v := by
    rw [readFixed_putFixed 8 _ (UInt64.toNat_lt v)]
    exact UInt64.ofNat_toNat
  simp only [Case.fixed64]
  rw [if_neg (by rw [List.length_append]; omega), List.take_left' hlen, List.drop_left' hlen, hv]

end Reads

/-- Pieces that take a value on, one after the other. -/
inductive Chain (s : Schema M) : List (List UInt8) → M → M → Prop
  | nil {m : M} : Chain s [] m m
  | cons {piece : List UInt8} {pieces : List (List UInt8)} {m m' m'' : M}
      (hpiece : Reads s piece m m') (hpieces : Chain s pieces m' m'') :
      Chain s (piece :: pieces) m m''

theorem Chain.append {ps qs : List (List UInt8)} (hp : Chain s ps m m') (hq : Chain s qs m' m'') :
    Chain s (ps ++ qs) m m'' := by
  induction hp with
  | nil => exact hq
  | cons hpiece _ ih => exact cons hpiece (ih hq)

theorem Chain.flatten {pieces : List (List UInt8)} (h : Chain s pieces m m') :
    Reads s pieces.flatten m m' := by
  induction h with
  | nil => exact Reads.nil
  | cons hpiece _ ih => exact hpiece.append ih

/-- A field that the reader does not know is left out. -/
theorem Reads.unknown {num : FieldNum} (content : Content) (hcase : s.cases num.1 = none) :
    Reads s (content.encode num) m m := by
  intro l rest hl hbig
  obtain ⟨hread, hend, hlen⟩ := content.readVarint_encode num rest
  obtain ⟨hpos, hnum⟩ := num.2
  have htype := content.wireType_lt
  have hdiv : (8 * num.1 + content.wireType) / 8 = num.1 := by omega
  have hfield : fieldNumber (8 * num.1 + content.wireType) = num.1 := by
    rw [fieldNumber_small (by omega), hdiv]
  apply unmarshalFrom_pass
  rw [← Int.toNat_natCast num.1, ← hfield] at hcase
  rw [Schema.pass_skip hread hend (by omega) hcase (by omega)]
  refine bind_eq_ok.2 ⟨_, s.skip.run_encode num content rest (by omega), ?_⟩
  rw [List.length_append] at hl
  simp only [Int.toNat_natCast, List.length_append, List.drop_left]
  rw [if_neg (by omega), if_neg (by omega), if_neg (by omega)]

def Fields.Unknown (s : Schema M) : Fields → Prop
  | .nil => True
  | .cons num _ fields => s.cases num.1 = none ∧ fields.Unknown s

theorem Reads.unknowns (fields : Fields) (h : fields.Unknown s) : Reads s fields.encode m m := by
  match fields with
  | .nil => exact Reads.nil
  | .cons num content fields =>
    rw [Fields.encode_cons]
    exact (Reads.unknown content h.1).append (Reads.unknowns fields h.2)

/-- Fields before, between and behind the pieces. -/
def padded (pad : ℕ → Fields) : List (List UInt8) → List UInt8
  | [] => (pad 0).encode
  | piece :: pieces => (pad (pieces.length + 1)).encode ++ piece ++ padded pad pieces

theorem Chain.padded {pad : ℕ → Fields} {pieces : List (List UInt8)} (h : Chain s pieces m m')
    (hpad : ∀ n, (pad n).Unknown s) : Reads s (padded pad pieces) m m' := by
  induction h with
  | nil => exact Reads.unknowns _ (hpad 0)
  | cons hpiece _ ih => exact ((Reads.unknowns _ (hpad _)).append hpiece).append ih

/-! ## Writing a field -/

def putSized (tag : UInt8) (size : ℕ) (data : List UInt8) : List UInt8 :=
  tag :: (encodeVarint size ++ data)

/-- What `l` bytes take as a field. -/
def sizeSized (l : ℕ) : ℕ :=
  1 + l + sov l

@[simp] theorem length_putSized {tag : UInt8} {size : ℕ} {data : List UInt8}
    (h : data.length = size) : (putSized tag size data).length = sizeSized size := by
  rw [putSized, List.length_cons, List.length_append, length_encodeVarint, h, sizeSized]
  omega

theorem Reads.bytes {tag : UInt8} {name : String} {set : List UInt8 → M → Except WireError M}
    {data : List UInt8} {size : ℕ} (htag : IsTag tag 2)
    (hcase : s.cases (tag.toNat / 8) = some (.bytes name set)) (hsize : data.length = size)
    (hset : data.length < 2 ^ 63 → set data m = .ok m') :
    Reads s (putSized tag size data) m m' := by
  subst hsize
  refine Reads.ofCase htag (by simp [Case.bytes]) hcase fun l rest hl hbig => ?_
  have hdata : data.length < 2 ^ 63 := by
    simp only [List.length_append] at hl
    omega
  refine bind_eq_ok.2 ⟨_, readBytes_append hl hbig, ?_⟩
  exact bind_eq_ok.2 ⟨_, hset hdata, rfl⟩

/-- A field of a value : what was set is what is got, and the last one set stays. -/
structure Lens (M α : Type) where
  get : M → α
  set : α → M → M
  get_set : ∀ a m, get (set a m) = a := by intros; rfl
  set_set : ∀ a b m, set b (set a m) = set b m := by intros; rfl
  set_get : ∀ m, set (get m) m = m := by intros; rfl

theorem Lens.set_of_get {α : Type} {x : Lens M α} {a : α} (h : x.get m = a) : x.set a m = m := by
  rw [← h, x.set_get]

/-- What comes in several fields is put behind what is there. -/
theorem Chain.map {α : Type} {put : α → List UInt8} {x : Lens M (List α)}
    (hput : ∀ a m, Reads s (put a) m (x.set (x.get m ++ [a]) m)) (as : List α) (m : M) :
    Chain s (as.map put) m (x.set (x.get m ++ as) m) := by
  induction as generalizing m with
  | nil =>
    rw [List.append_nil, x.set_get]
    exact nil
  | cons a as ih =>
    have hrest := ih (x.set (x.get m ++ [a]) m)
    rw [x.get_set, x.set_set, List.append_assoc, List.singleton_append] at hrest
    exact cons (hput a m) hrest

section Scalar

variable {α : Type} [Scalar α]

/-- A number that is not zero. -/
def putScalar (tag : UInt8) (a : α) : List UInt8 :=
  if Scalar.toWire a = 0 then [] else tag :: encodeVarint (Scalar.toWire a).toNat

def sizeScalar (a : α) : ℕ :=
  if Scalar.toWire a = 0 then 0 else 1 + sov (Scalar.toWire a).toNat

@[simp] theorem length_putScalar (tag : UInt8) (a : α) :
    (putScalar tag a).length = sizeScalar a := by
  unfold putScalar sizeScalar
  split_ifs
  · rfl
  · rw [List.length_cons, length_encodeVarint, Nat.add_comm]

theorem Reads.putScalar {tag : UInt8} {name : String} (x : Lens M α) (a : α) (htag : IsTag tag 0)
    (hcase : s.cases (tag.toNat / 8) = some (.scalar name x.set))
    (hzero : x.get m = Scalar.ofWire 0) : Reads s (putScalar tag a) m (x.set a m) := by
  unfold Wire.putScalar
  split_ifs with h
  · have ha : a = Scalar.ofWire 0 := by rw [← h, Scalar.ofWire_toWire]
    rw [ha, Lens.set_of_get hzero]
    exact nil
  · exact Reads.scalar x.set a htag hcase

end Scalar

/-- A flag that is set. -/
def putBool (tag : UInt8) (b : Bool) : List UInt8 :=
  if b then [tag, 1] else []

def sizeBool (b : Bool) : ℕ :=
  if b then 2 else 0

@[simp] theorem length_putBool (tag : UInt8) (b : Bool) : (putBool tag b).length = sizeBool b := by
  cases b <;> rfl

theorem Reads.putBool {tag : UInt8} {name : String} (x : Lens M Bool) (b : Bool)
    (htag : IsTag tag 0) (hcase : s.cases (tag.toNat / 8) = some (.scalar name x.set))
    (hfalse : x.get m = false) : Reads s (putBool tag b) m (x.set b m) := by
  cases b with
  | false => exact Reads.putScalar x false htag hcase hfalse
  | true => exact Reads.scalar x.set true htag hcase

/-- A string that is not empty. -/
def putString (tag : UInt8) (data : List UInt8) : List UInt8 :=
  if data = [] then [] else putSized tag data.length data

def sizeString (data : List UInt8) : ℕ :=
  if data = [] then 0 else sizeSized data.length

@[simp] theorem length_putString (tag : UInt8) (data : List UInt8) :
    (putString tag data).length = sizeString data := by
  unfold putString sizeString
  split_ifs
  · rfl
  · exact length_putSized rfl

theorem Reads.string {tag : UInt8} {name : String} (set : List UInt8 → M → M) (data : List UInt8)
    (htag : IsTag tag 2) (hcase : s.cases (tag.toNat / 8) = some (.string name set)) :
    Reads s (putSized tag data.length data) m (set data m) :=
  Reads.bytes htag hcase rfl fun _ => rfl

theorem Reads.putString {tag : UInt8} {name : String} (x : Lens M (List UInt8))
    (data : List UInt8) (htag : IsTag tag 2)
    (hcase : s.cases (tag.toNat / 8) = some (.string name x.set)) (hempty : x.get m = []) :
    Reads s (putString tag data) m (x.set data m) := by
  unfold Wire.putString
  split_ifs with h
  · rw [h, Lens.set_of_get hempty]
    exact nil
  · exact Reads.string x.set data htag hcase

/-- One more string. -/
def Case.strings (name : String) (x : Lens M (List (List UInt8))) : Case M :=
  .string name fun data m => x.set (x.get m ++ [data]) m

def putStrings (tag : UInt8) (datas : List (List UInt8)) : List UInt8 :=
  datas.flatMap fun data => putSized tag data.length data

def sizeStrings (datas : List (List UInt8)) : ℕ :=
  (datas.map fun data => sizeSized data.length).sum

@[simp] theorem length_putStrings (tag : UInt8) (datas : List (List UInt8)) :
    (putStrings tag datas).length = sizeStrings datas := by
  simp [putStrings, sizeStrings, List.length_flatMap]

theorem Chain.putStrings {tag : UInt8} {name : String} (x : Lens M (List (List UInt8)))
    (datas : List (List UInt8)) (htag : IsTag tag 2)
    (hcase : s.cases (tag.toNat / 8) = some (.strings name x)) (hnil : x.get m = []) :
    Chain s (datas.map fun data => putSized tag data.length data) m (x.set datas m) := by
  have h := Chain.map (fun data _ => Reads.string _ data htag hcase) datas m
  rwa [hnil, List.nil_append] at h

/-! ## Messages -/

/-- A message : what it is written as, and how it is read. -/
structure Codec (M : Type) where
  init : M
  size : M → ℕ
  marshalTo : M → List UInt8
  schema : Schema M
  length_marshalTo : ∀ m, (marshalTo m).length = size m
  reads : ∀ m, Reads schema (marshalTo m) init m

namespace Codec

variable {N : Type} (c : Codec N)

/-- `Marshal` : what does not fit the buffer of its size is out of its range. -/
def marshal (n : N) : Except WireError (List UInt8) :=
  if c.size n < (c.marshalTo n).length then .error .panic else .ok (c.marshalTo n)

def unmarshal (bytes : List UInt8) : Except WireError N :=
  c.schema.unmarshal bytes c.init

@[simp] theorem marshal_eq (n : N) : c.marshal n = .ok (c.marshalTo n) := by
  rw [marshal, if_neg (by rw [c.length_marshalTo]; exact lt_irrefl _)]

/-- A message is read back. -/
theorem unmarshal_marshalTo {n : N} (h : c.size n < 2 ^ 63) :
    c.unmarshal (c.marshalTo n) = .ok n :=
  (c.reads n).unmarshal ((c.length_marshalTo n).trans_lt h)

def put (tag : UInt8) (n : N) : List UInt8 :=
  putSized tag (c.size n) (c.marshalTo n)

def putSize (n : N) : ℕ :=
  sizeSized (c.size n)

@[simp] theorem length_put (tag : UInt8) (n : N) : (c.put tag n).length = c.putSize n :=
  length_putSized (c.length_marshalTo n)

/-- A message that may be there, which is read into the one that is. -/
def optional (name : String) (x : Lens M (Option N)) : Case M :=
  .bytes name fun data m => do
    let n ← c.schema.unmarshal data ((x.get m).getD c.init)
    return x.set (some n) m

def putOption (tag : UInt8) (n : Option N) : List UInt8 :=
  n.elim [] (c.put tag)

def putOptionSize (n : Option N) : ℕ :=
  n.elim 0 c.putSize

@[simp] theorem length_putOption (tag : UInt8) (n : Option N) :
    (c.putOption tag n).length = c.putOptionSize n := by
  cases n with
  | none => rfl
  | some n => exact c.length_put tag n

theorem reads_putOption {tag : UInt8} {name : String} (x : Lens M (Option N)) (n : Option N)
    (htag : IsTag tag 2) (hcase : s.cases (tag.toNat / 8) = some (c.optional name x))
    (hnone : x.get m = none) : Reads s (c.putOption tag n) m (x.set n m) := by
  cases n with
  | none =>
    rw [Lens.set_of_get hnone]
    exact Reads.nil
  | some n =>
    refine Reads.bytes htag hcase (c.length_marshalTo n) fun hlen => ?_
    rw [hnone]
    exact bind_eq_ok.2 ⟨n, (c.reads n).unmarshal hlen, rfl⟩

/-- One more message. -/
def repeated (name : String) (x : Lens M (List N)) : Case M :=
  .bytes name fun data m => do
    let n ← c.schema.unmarshal data c.init
    return x.set (x.get m ++ [n]) m

def putAll (tag : UInt8) (ns : List N) : List UInt8 :=
  ns.flatMap (c.put tag)

def putAllSize (ns : List N) : ℕ :=
  (ns.map c.putSize).sum

@[simp] theorem length_putAll (tag : UInt8) (ns : List N) :
    (c.putAll tag ns).length = c.putAllSize ns := by
  simp [putAll, putAllSize, List.length_flatMap]

theorem chain_putAll {tag : UInt8} {name : String} (x : Lens M (List N)) (ns : List N)
    (htag : IsTag tag 2) (hcase : s.cases (tag.toNat / 8) = some (c.repeated name x))
    (hnil : x.get m = []) : Chain s (ns.map (c.put tag)) m (x.set ns m) := by
  have hput : ∀ n m, Reads s (c.put tag n) m (x.set (x.get m ++ [n]) m) := by
    intro n m
    refine Reads.bytes htag hcase (c.length_marshalTo n) fun hlen => ?_
    exact bind_eq_ok.2 ⟨n, (c.reads n).unmarshal hlen, rfl⟩
  have h := Chain.map hput ns m
  rwa [hnil, List.nil_append] at h

theorem reads_putAll {tag : UInt8} {name : String} (x : Lens M (List N)) (ns : List N)
    (htag : IsTag tag 2) (hcase : s.cases (tag.toNat / 8) = some (c.repeated name x))
    (hnil : x.get m = []) : Reads s (c.putAll tag ns) m (x.set ns m) :=
  (c.chain_putAll x ns htag hcase hnil).flatten

end Codec

/-! ## How much is written -/

theorem sovFrom_le (n x : ℕ) : sovFrom n x ≤ n + 1 := by
  induction n generalizing x with
  | zero => exact le_rfl
  | succ n ih =>
    unfold sovFrom
    split_ifs
    · exact Nat.le_add_left 1 _
    · exact Nat.succ_le_succ (ih _)

theorem sov_le (x : ℕ) : sov x ≤ 10 :=
  sovFrom_le 9 x

/-- A tag and a length are put before the bytes of a field. -/
theorem sizeSized_le (l : ℕ) : sizeSized l ≤ l + 11 := by
  have hsov := sov_le l
  unfold sizeSized
  omega

theorem sizeScalar_le {α : Type} [Scalar α] (a : α) : sizeScalar a ≤ 11 := by
  have hsov := sov_le (Scalar.toWire a).toNat
  unfold sizeScalar
  split_ifs <;> omega

theorem sizeString_le (data : List UInt8) : sizeString data ≤ data.length + 11 := by
  unfold sizeString
  split_ifs
  · exact Nat.zero_le _
  · exact sizeSized_le _

namespace Codec

variable {N : Type} (c : Codec N) {b : ℕ}

theorem putSize_le {n : N} (h : c.size n ≤ b) : c.putSize n ≤ b + 11 :=
  (sizeSized_le _).trans (Nat.add_le_add_right h 11)

theorem putAllSize_le {ns : List N} (h : ∀ n ∈ ns, c.size n ≤ b) :
    c.putAllSize ns ≤ ns.length * (b + 11) := by
  have hsum := List.sum_le_card_nsmul (ns.map c.putSize) (b + 11) (by
    intro size hsize
    obtain ⟨n, hn, rfl⟩ := List.mem_map.1 hsize
    exact c.putSize_le (h n hn))
  rwa [List.length_map, Nat.nsmul_eq_mul] at hsum

end Codec

end Wire

end TracerBench
