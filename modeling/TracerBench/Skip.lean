import TracerBench.Wire

/-!
# Skipping a field

The messages of the collector and the timestamp were generated by two versions of one generator.
The older one calls itself for the fields of a group, the newer one counts how deep it is. Over a
field that is well formed, groups within groups included, both go to the same index.
-/

namespace TracerBench

open Wire

/-! ## The older one -/

mutual

/-- `skipCollector`. -/
def skipCollector (bytes : List UInt8) : Except WireError ℤ :=
  if bytes = [] then .error .panic
  else
    match _h : readVarint 0 0 bytes with
    | .error e => .error e
    | .ok (wire, rest) =>
      let iNdEx : ℤ := bytes.length - rest.length
      match wire % 8 with
      | 0 => do
        let (_, rest) ← readVarint 0 0 rest
        return bytes.length - rest.length
      | 1 => .ok (iNdEx + 8)
      | 2 => do
        let (length, rest) ← readVarint 0 0 rest
        if 2 ^ 63 ≤ length then .error .invalidLength
        else .ok (Int.bmod (bytes.length - rest.length + length) (2 ^ 64))
      | 3 => do
        let next ← skipGroup rest
        return iNdEx + next
      | 4 => .ok iNdEx
      | 5 => .ok (iNdEx + 4)
      | wireType => .error (.illegalWireType wireType)
termination_by (bytes.length, 0)
decreasing_by
  all_goals first
    | exact Prod.Lex.left _ _ (readVarint_length _h)

/-- The fields of a group and its end. -/
def skipGroup (bytes : List UInt8) : Except WireError ℤ :=
  match _h : readVarint 0 0 bytes with
  | .error e => .error e
  | .ok (innerWire, rest) =>
    if innerWire % 8 = 4 then .ok (bytes.length - rest.length)
    else
      match skipCollector bytes with
      | .error e => .error e
      | .ok next =>
        -- the next byte is looked up below zero
        if next ≤ 0 then .error .panic
        else
          match skipGroup (bytes.drop next.toNat) with
          | .error e => .error e
          | .ok last => .ok (next + last)
termination_by (bytes.length, 1)
decreasing_by
  · exact Prod.Lex.right _ Nat.zero_lt_one
  · have hlen := readVarint_length _h
    apply Prod.Lex.left
    rw [List.length_drop]
    omega

end

theorem skipGroup_pos (bytes : List UInt8) {n : ℤ} (h : skipGroup bytes = .ok n) : 0 < n := by
  rw [skipGroup] at h
  split at h
  · cases h
  next innerWire rest hread =>
  have hlen := readVarint_length hread
  split_ifs at h with hend
  · cases h
    omega
  split at h
  · cases h
  next next _ =>
  split_ifs at h with hnext
  split at h
  · cases h
  next last hlast =>
  cases h
  have hpos := skipGroup_pos (bytes.drop next.toNat) hlast
  omega
termination_by bytes.length
decreasing_by
  rw [List.length_drop]
  omega

/-- A field takes at least its tag. -/
theorem skipCollector_ne_zero (bytes : List UInt8) (hbig : bytes.length < 2 ^ 63) :
    skipCollector bytes ≠ .ok 0 := by
  intro h
  rw [skipCollector] at h
  split_ifs at h
  split at h
  · cases h
  next wire rest hread =>
  have hlen := readVarint_length hread
  split at h
  · obtain ⟨⟨v, rest'⟩, hv, h⟩ := bind_eq_ok.1 h
    have hlen' := readVarint_length hv
    have h0 := Except.ok.inj h
    omega
  · have h0 := Except.ok.inj h
    omega
  · obtain ⟨⟨length, rest'⟩, hv, h⟩ := bind_eq_ok.1 h
    have hlen' := readVarint_length hv
    simp only at h
    split_ifs at h
    have hdvd := Int.dvd_of_bmod_eq_zero (Except.ok.inj h)
    push_cast at hdvd
    omega
  · obtain ⟨next, hnext, h⟩ := bind_eq_ok.1 h
    have hpos := skipGroup_pos rest hnext
    have h0 := Except.ok.inj h
    omega
  · have h0 := Except.ok.inj h
    omega
  · have h0 := Except.ok.inj h
    omega
  · cases h

theorem skipCollector_read {bytes rest : List UInt8} {wire : ℕ}
    (h : readVarint 0 0 bytes = .ok (wire, rest)) :
    skipCollector bytes =
      match wire % 8 with
      | 0 => do
        let (_, rest) ← readVarint 0 0 rest
        return bytes.length - rest.length
      | 1 => .ok (bytes.length - rest.length + 8)
      | 2 => do
        let (length, rest) ← readVarint 0 0 rest
        if 2 ^ 63 ≤ length then .error .invalidLength
        else .ok (Int.bmod (bytes.length - rest.length + length) (2 ^ 64))
      | 3 => do
        let next ← skipGroup rest
        return bytes.length - rest.length + next
      | 4 => .ok (bytes.length - rest.length)
      | 5 => .ok (bytes.length - rest.length + 4)
      | wireType => .error (.illegalWireType wireType) := by
  have hne : bytes ≠ [] := by
    rintro rfl
    cases h
  rw [skipCollector, if_neg hne]
  split
  · next e he => simp [h] at he
  · next wire' rest' he =>
    obtain ⟨rfl, rfl⟩ := Prod.mk.inj (Except.ok.inj (h.symm.trans he))
    rfl

theorem skipGroup_end {bytes rest : List UInt8} {wire : ℕ}
    (h : readVarint 0 0 bytes = .ok (wire, rest)) (hend : wire % 8 = 4) :
    skipGroup bytes = .ok (bytes.length - rest.length) := by
  rw [skipGroup]
  split
  · next e he => simp [h] at he
  · next wire' rest' he =>
    obtain ⟨rfl, rfl⟩ := Prod.mk.inj (Except.ok.inj (h.symm.trans he))
    rw [if_pos hend]

theorem skipGroup_field {bytes rest : List UInt8} {wire n : ℕ}
    (h : readVarint 0 0 bytes = .ok (wire, rest)) (hend : wire % 8 ≠ 4)
    (hskip : skipCollector bytes = .ok n) (hn : 0 < n) :
    skipGroup bytes = do
      let last ← skipGroup (bytes.drop n)
      return n + last := by
  rw [skipGroup]
  split
  · next e he => simp [h] at he
  · next wire' rest' he =>
    obtain ⟨rfl, rfl⟩ := Prod.mk.inj (Except.ok.inj (h.symm.trans he))
    rw [if_neg hend]
    simp only [hskip]
    rw [if_neg (by omega), Int.toNat_natCast]
    cases skipGroup (bytes.drop n) <;> rfl

mutual

/-- A field is skipped to its last byte. -/
theorem skipCollector_encode (num : FieldNum) (content : Content) (rest : List UInt8)
    (hbig : (content.encode num ++ rest).length < 2 ^ 63) :
    skipCollector (content.encode num ++ rest) = .ok (content.encode num).length := by
  have hmod : ∀ wireType < 8, (8 * num.1 + wireType) % 8 = wireType := by omega
  cases content with
  | varint v =>
    simp only [Content.encode, Content.wireType, Content.data, List.append_assoc]
    rw [skipCollector_read (readVarint_tagOf num (by omega) _), hmod 0 (by omega)]
    refine bind_eq_ok.2 ⟨_, readVarint_encodeVarint (UInt64.toNat_lt v) rest, ?_⟩
    simp only [List.length_append]
    congr 1
    omega
  | fixed64 v =>
    simp only [Content.encode, Content.wireType, Content.data, List.append_assoc]
    rw [skipCollector_read (readVarint_tagOf num (by omega) _), hmod 1 (by omega)]
    simp
  | bytes data =>
    simp only [Content.encode, Content.wireType, Content.data, List.append_assoc,
      List.length_append] at hbig ⊢
    rw [skipCollector_read (readVarint_tagOf num (by omega) _), hmod 2 (by omega)]
    refine bind_eq_ok.2 ⟨_, readVarint_encodeVarint (by omega) (data ++ rest), ?_⟩
    simp only [List.length_append]
    rw [if_neg (by omega), Int.bmod_eq_of_le (by omega) (by omega)]
    congr 1
    omega
  | group fields =>
    simp only [Content.encode, Content.wireType, Content.data, List.append_assoc] at hbig ⊢
    rw [skipCollector_read (readVarint_tagOf num (by omega) _), hmod 3 (by omega)]
    have hgroup := skipGroup_encode num fields rest
      (by simp only [List.length_append] at hbig ⊢; omega)
    rw [List.append_assoc] at hgroup
    refine bind_eq_ok.2 ⟨_, hgroup, ?_⟩
    simp only [List.length_append]
    congr 1
    omega
  | fixed32 v =>
    simp only [Content.encode, Content.wireType, Content.data, List.append_assoc]
    rw [skipCollector_read (readVarint_tagOf num (by omega) _), hmod 5 (by omega)]
    simp

theorem skipGroup_encode (num : FieldNum) (fields : Fields) (rest : List UInt8)
    (hbig : (fields.encode ++ tagOf num 4 ++ rest).length < 2 ^ 63) :
    skipGroup (fields.encode ++ tagOf num 4 ++ rest) =
      .ok (fields.encode ++ tagOf num 4).length := by
  cases fields with
  | nil =>
    simp only [Fields.encode, List.nil_append]
    rw [skipGroup_end (readVarint_tagOf num (by omega) rest) (by omega), List.length_append]
    congr 1
    omega
  | cons num' content fields =>
    simp only [Fields.encode_cons, List.append_assoc] at hbig ⊢
    obtain ⟨hread, hend, hpos⟩ := content.readVarint_encode num'
      (fields.encode ++ (tagOf num 4 ++ rest))
    have hskip := skipCollector_encode num' content _ hbig
    have hrest := skipGroup_encode num fields rest
      (by simp only [List.length_append] at hbig ⊢; omega)
    rw [List.append_assoc] at hrest
    rw [skipGroup_field hread hend hskip hpos, List.drop_left]
    refine bind_eq_ok.2 ⟨_, hrest, ?_⟩
    simp only [List.length_append]
    congr 1

end

def collectorSkip : Skip where
  run := skipCollector
  overrun := .panic
  run_ne_zero := skipCollector_ne_zero
  run_encode := skipCollector_encode

/-! ## The newer one -/

/-- What is behind the tag, and the depth after it. -/
def stepTimestamp (depth wireType : ℕ) (rest : List UInt8) : Except WireError (ℕ × ℕ) :=
  match wireType with
  | 0 => do
    let (_, rest') ← readVarint 0 0 rest
    return (rest.length - rest'.length, depth)
  | 1 => .ok (8, depth)
  | 2 => do
    let (length, rest') ← readVarint 0 0 rest
    if 2 ^ 63 ≤ length then .error .invalidLength
    else .ok (rest.length - rest'.length + length, depth)
  | 3 => .ok (0, depth + 1)
  | 4 => if depth = 0 then .error .unexpectedEndOfGroup else .ok (0, depth - 1)
  | 5 => .ok (4, depth)
  | wireType => .error (.illegalWireType wireType)

def skipTimestampFrom (l depth : ℕ) (bytes : List UInt8) : Except WireError ℤ :=
  match _h : readVarint 0 0 bytes with
  | .error e => .error e
  | .ok (wire, rest) =>
    match stepTimestamp depth (wire % 8) rest with
    | .error e => .error e
    | .ok (n, depth) =>
      let iNdEx := l - rest.length + n
      if 2 ^ 63 ≤ iNdEx then .error .invalidLength
      else if depth = 0 then .ok iNdEx
      else skipTimestampFrom l depth (rest.drop n)
termination_by bytes.length
decreasing_by
  have hlen := readVarint_length _h
  rw [List.length_drop]
  omega

/-- `skipTimestamp`. -/
def skipTimestamp (bytes : List UInt8) : Except WireError ℤ :=
  skipTimestampFrom bytes.length 0 bytes

theorem skipTimestampFrom_gt (l depth : ℕ) (bytes : List UInt8) {n : ℤ}
    (hl : bytes.length ≤ l) (h : skipTimestampFrom l depth bytes = .ok n) :
    (l - bytes.length : ℤ) < n := by
  rw [skipTimestampFrom] at h
  split at h
  · cases h
  next wire rest hread =>
  have hlen := readVarint_length hread
  split at h
  · cases h
  next skipped depth' _ =>
  simp only at h
  split_ifs at h
  · have hn := Except.ok.inj h
    omega
  · have hle : (rest.drop skipped).length ≤ l := by
      rw [List.length_drop]
      omega
    have hrec := skipTimestampFrom_gt l depth' (rest.drop skipped) hle h
    rw [List.length_drop] at hrec
    omega
termination_by bytes.length
decreasing_by
  rw [List.length_drop]
  omega

theorem skipTimestamp_ne_zero (bytes : List UInt8) (_ : bytes.length < 2 ^ 63) :
    skipTimestamp bytes ≠ .ok 0 := by
  intro h
  have hpos := skipTimestampFrom_gt _ 0 bytes le_rfl h
  omega

/-- Out of all groups the field is over. -/
def goOn (l depth : ℕ) (rest : List UInt8) : Except WireError ℤ :=
  if depth = 0 then .ok ((l - rest.length : ℕ) : ℤ) else skipTimestampFrom l depth rest

theorem skipTimestampFrom_step {l depth depth' wireType : ℕ} {num : FieldNum}
    {skipped rest : List UInt8} (htype : wireType < 8)
    (hstep : stepTimestamp depth wireType (skipped ++ rest) = .ok (skipped.length, depth'))
    (hl : (skipped ++ rest).length ≤ l) (hbig : l < 2 ^ 63) :
    skipTimestampFrom l depth (tagOf num wireType ++ (skipped ++ rest)) = goOn l depth' rest := by
  have hread := readVarint_tagOf num htype (skipped ++ rest)
  have hmod : (8 * num.1 + wireType) % 8 = wireType := by omega
  rw [List.length_append] at hl
  have hindex : l - (skipped ++ rest).length + skipped.length = l - rest.length := by
    rw [List.length_append]
    omega
  rw [skipTimestampFrom]
  split
  · next e he => simp [hread] at he
  · next wire' rest' he =>
    obtain ⟨rfl, rfl⟩ := Prod.mk.inj (Except.ok.inj (hread.symm.trans he))
    simp only [hmod, hstep, hindex, List.drop_left]
    rw [if_neg (by omega), goOn]

mutual

theorem skipTimestampFrom_encode (l depth : ℕ) (num : FieldNum) (content : Content)
    (rest : List UInt8) (hl : (content.encode num ++ rest).length ≤ l) (hbig : l < 2 ^ 63) :
    skipTimestampFrom l depth (content.encode num ++ rest) = goOn l depth rest := by
  rw [Content.encode, List.append_assoc] at hl ⊢
  have hdata : (content.data num ++ rest).length ≤ l := by
    rw [List.length_append] at hl
    omega
  have htype := content.wireType_lt
  cases content with
  | varint v =>
    refine skipTimestampFrom_step htype ?_ hdata hbig
    refine bind_eq_ok.2 ⟨_, readVarint_encodeVarint (UInt64.toNat_lt v) rest, ?_⟩
    simp [Content.data, pure, Except.pure]
  | fixed64 v =>
    refine skipTimestampFrom_step htype ?_ hdata hbig
    simp [stepTimestamp, Content.wireType, Content.data]
  | bytes data =>
    refine skipTimestampFrom_step htype ?_ hdata hbig
    simp only [Content.data, List.append_assoc, List.length_append] at hdata ⊢
    refine bind_eq_ok.2 ⟨_, readVarint_encodeVarint (by omega) (data ++ rest), ?_⟩
    simp only [List.length_append]
    rw [if_neg (by omega)]
    congr 2
    omega
  | group fields =>
    have hgroup := skipTimestampFrom_group l depth num fields rest hdata hbig
    exact (@skipTimestampFrom_step _ _ (depth + 1) _ num [] _ htype rfl hdata hbig).trans hgroup
  | fixed32 v =>
    refine skipTimestampFrom_step htype ?_ hdata hbig
    simp [stepTimestamp, Content.wireType, Content.data]

/-- The end of a group goes up again. -/
theorem skipTimestampFrom_group (l depth : ℕ) (num : FieldNum) (fields : Fields)
    (rest : List UInt8) (hl : (fields.encode ++ tagOf num 4 ++ rest).length ≤ l)
    (hbig : l < 2 ^ 63) :
    skipTimestampFrom l (depth + 1) (fields.encode ++ tagOf num 4 ++ rest) = goOn l depth rest := by
  rw [List.append_assoc] at hl ⊢
  have hinner : (tagOf num 4 ++ rest).length ≤ l := by
    rw [List.length_append] at hl
    omega
  cases fields with
  | nil =>
    have hrest : rest.length ≤ l := by
      rw [List.length_append] at hinner
      omega
    exact @skipTimestampFrom_step l (depth + 1) depth 4 num [] rest (by omega) rfl hrest hbig
  | cons num' content fields =>
    simp only [Fields.encode_cons, List.append_assoc] at hl ⊢
    have hfields : (fields.encode ++ (tagOf num 4 ++ rest)).length ≤ l := by
      rw [List.length_append] at hl
      omega
    have hgroup := skipTimestampFrom_group l depth num fields rest
      (by rwa [List.append_assoc]) hbig
    rw [List.append_assoc] at hgroup
    rw [skipTimestampFrom_encode l (depth + 1) num' content _ hl hbig, goOn,
      if_neg (Nat.succ_ne_zero depth), hgroup]

end

theorem skipTimestamp_encode (num : FieldNum) (content : Content) (rest : List UInt8)
    (hbig : (content.encode num ++ rest).length < 2 ^ 63) :
    skipTimestamp (content.encode num ++ rest) = .ok (content.encode num).length := by
  rw [skipTimestamp, skipTimestampFrom_encode _ 0 num content rest le_rfl hbig, goOn, if_pos rfl,
    List.length_append, Nat.add_sub_cancel]

def timestampSkip : Skip where
  run := skipTimestamp
  overrun := .invalidLength
  run_ne_zero := skipTimestamp_ne_zero
  run_encode := skipTimestamp_encode

end TracerBench
