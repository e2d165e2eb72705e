import TracerBench.ChunkedBody
import TracerBench.Satellite

/-!
# Reports cut short

A connection that ends inside a report's body. With `Transfer-Encoding: chunked` the end
is noticed : in the data or its CRLF the delimiter is missing and `do_POST` raises, in a
length line the handler never gets past it. With `Content-Length` it is not. `read`
returns what there was, and `POST` takes that for the report.

`cut_report_rejected_iff` is the exact condition under which a satellite that accepts
reports neither answers 200 to a report cut short nor counts it : the bytes that came are
not themselves a report.  A chunked body meets it, unless a length line of more than 14
digits makes the length reader give up, and the chunks before that line are a report.
-/

namespace TracerBench

variable {Span : Type*} (parse : List UInt8 → Option (List Span)) (mode : Mode)

/-- A request to `/api/v2/reports` in its handler thread : the code it answers, `none` if
an error ends the thread first, and the counter it leaves. -/
def handleReport (fuel : ℕ) (headers : Headers) (rfile : List UInt8) (spansReceived : ℕ) :
    Option (Option ℕ × ℕ) :=
  (readBody fuel headers rfile).map fun r =>
    match r with
    | .error _ => (none, spansReceived)
    | .ok (binaryBody, _) =>
      let (code, spansReceived) := POST parse mode "/api/v2/reports" binaryBody spansReceived
      (some code, spansReceived)

/-- However long the handler runs, it does not answer 200, and it leaves the counter. -/
def NeverAccepted (headers : Headers) (rfile : List UInt8) : Prop :=
  ∀ fuel n code n', handleReport parse mode fuel headers rfile n = some (code, n') →
    code ≠ some 200 ∧ n' = n

/-! ## Framed bodies -/

/-- A body as it is sent : in one piece, or in chunks with a last line of `zeros` zeros. -/
inductive Framing where
  | length (body : List UInt8)
  | chunked (chunks : List Chunk) (zeros : ℕ)

namespace Framing

def headers : Framing → Headers
  | length body => lengthHeaders body.length
  | chunked _ _ => chunkedHeaders

def bytes : Framing → List UInt8
  | length body => body
  | chunked chunks zeros => frames chunks ++ lastLine zeros

/-- The first `k` bytes stop short of the last byte of the data. -/
def BeforeLastByte : Framing → ℕ → Prop
  | length body, k => k < body.length
  | chunked chunks _, k => k + delimiter.length < (frames chunks).length

instance (f : Framing) (k : ℕ) : Decidable (f.BeforeLastByte k) := by
  cases f <;> exact inferInstanceAs (Decidable (_ < _))

/-- What came of the body, `k` bytes, is not taken for a report. -/
def Caught (parse : List UInt8 → Option (List Span)) : Framing → ℕ → Prop
  | length body, k => parse (body.take k) = none
  | chunked chunks _, k => ∀ cs c cs', chunks = cs ++ c :: cs' → (∀ x ∈ cs, x.Fits) →
      ¬c.Fits → (frames cs).length + 16 ≤ k → parse (bodyOf cs) = none

end Framing

/-! ## Chunked bodies cut short -/

/-- The first 16 bytes of a chunk whose length line does not fit have no CRLF. -/
theorem overlong_noDelimiter {c : Chunk} (hc : ¬c.Fits) (rfile : List UInt8) :
    ¬delimiter <:+: (c.frame ++ rfile).take 16 := by
  have hlen : 15 ≤ c.line.length := by
    unfold Chunk.Fits at hc
    omega
  have hpre : (c.frame ++ rfile).take 16 = (c.line ++ [13]).take 16 := by
    have happ : c.frame ++ rfile = (c.line ++ [13]) ++ (10 :: (c.data ++ delimiter ++ rfile)) := by
      simp [Chunk.frame, delimiter]
    rw [happ, List.take_append_of_le_length (by simp; omega)]
  rw [hpre]
  exact fun h => noDelimiter_numeral c.line_numeral (h.trans (List.take_prefix _ _).isInfix)

/-- A pass at a length line that does not fit ends the loop, as if the body were whole. -/
theorem chunkPass_overlong {fuel : ℕ} (hfuel : 17 ≤ fuel) {c : Chunk} (hc : ¬c.Fits)
    (acc rfile : List UInt8) {k : ℕ} (hk : 16 ≤ k) :
    ∃ rest, chunkPass fuel (acc, (c.frame ++ rfile).take k) = some (.done (.ok (acc, rest))) := by
  have h16 : ((c.frame ++ rfile).take k).take 16 = (c.frame ++ rfile).take 16 := by
    rw [List.take_take, Nat.min_eq_left hk]
  have hlen : ((c.frame ++ rfile).take 16).length = 16 := by
    unfold Chunk.Fits at hc
    simp [Chunk.frame]
    omega
  have hread := readChunkLength_overlong hfuel (overlong_noDelimiter hc rfile) hlen
    (((c.frame ++ rfile).take k).drop 16)
  rw [← h16, List.take_append_drop] at hread
  exact ⟨_, by rw [chunkPass, hread]; rfl⟩

/-- A connection that ends inside a chunk whose length line fits, before the end of its
CRLF : the length reader or the missing delimiter keeps the pass from appending to the body. -/
theorem chunkPass_cut {fuel : ℕ} (hfuel : 16 ≤ fuel) {c : Chunk} (hc : c.Fits)
    (acc rfile : List UInt8) {k : ℕ} (hk : k < c.frame.length) :
    chunkPass fuel (acc, (c.frame ++ rfile).take k) = none ∨
      ∃ e, chunkPass fuel (acc, (c.frame ++ rfile).take k) = some (.done (.error e)) := by
  rw [List.take_append_of_le_length hk.le]
  rcases Nat.lt_or_ge k (c.line.length + 2) with hline | hdata
  · -- inside the length line
    left
    have hpre : c.frame.take k = (c.line ++ [13]).take k := by
      have happ : c.frame = (c.line ++ [13]) ++ (10 :: (c.data ++ delimiter)) := by
        simp [Chunk.frame, delimiter]
      rw [happ, List.take_append_of_le_length (by simp; omega)]
    have hne : ¬delimiter <:+: c.frame.take k := by
      rw [hpre]
      exact fun h => noDelimiter_numeral c.line_numeral (h.trans (List.take_prefix _ _).isInfix)
    have hlen : (c.frame.take k).length < 16 := by
      unfold Chunk.Fits at hc
      simp
      omega
    rw [chunkPass, readChunkLength_stuck fuel hne hlen]
  · -- in the data, or in the CRLF after it
    right
    have hpos : ¬(c.data.length : ℤ) ≤ 0 := by
      have := List.length_pos_of_ne_nil c.data_ne
      omega
    obtain ⟨j, rfl⟩ : ∃ j, k = (c.line ++ delimiter).length + j :=
      ⟨k - (c.line ++ delimiter).length, by simp; omega⟩
    have hj : j < c.data.length + 2 := by
      simp [Chunk.frame] at hk
      omega
    have hread : readDelimiter (((c.data ++ delimiter).take j).drop c.data.length) =
        .error (.exception "Unable to read delimiter.") := by
      rw [readDelimiter, if_pos]
      intro h
      have hlen := congrArg List.length h
      simp at hlen
      omega
    refine ⟨.exception "Unable to read delimiter.", ?_⟩
    rw [Chunk.frame, List.take_length_add_append, chunkPass,
      readChunkLength_numeral hfuel c.line_numeral hc, c.line_val]
    simp only [if_neg hpos, Int.toNat_natCast, hread]

/-- A chunk whose length line fits and that is all there is appended as if the body were whole. -/
theorem chunkPass_take {fuel : ℕ} (hfuel : 16 ≤ fuel) {c : Chunk} (hc : c.Fits)
    (acc rfile : List UInt8) {k : ℕ} (hk : c.frame.length ≤ k) :
    chunkPass fuel (acc, (c.frame ++ rfile).take k) =
      some (.more (acc ++ c.data, rfile.take (k - c.frame.length))) := by
  rw [List.take_append, List.take_of_length_le hk, chunkPass_frame hfuel hc]

/-- The chunk loop leaves a cut body only at a length line that does not fit, with the data
of the chunks before it. -/
theorem loop_cut {fuel : ℕ} (hfuel : 17 ≤ fuel) (tail : List UInt8) {b rest : List UInt8} :
    ∀ {chunks : List Chunk} {n k : ℕ} {acc : List UInt8}, k + 2 < (frames chunks).length →
      loop (chunkPass fuel) n (acc, (frames chunks ++ tail).take k) = some (.ok (b, rest)) →
      ∃ cs c cs', chunks = cs ++ c :: cs' ∧ (∀ x ∈ cs, x.Fits) ∧ ¬c.Fits ∧
        (frames cs).length + 16 ≤ k ∧ b = acc ++ bodyOf cs
  | [], n, k, acc, hk, _ => by simp at hk
  | c :: chunks, 0, k, acc, _, h => by simp [loop] at h
  | c :: chunks, n + 1, k, acc, hk, h => by
    have hfuel' : 16 ≤ fuel := by omega
    rw [frames_cons, List.append_assoc] at h
    by_cases hc : c.Fits
    · rcases Nat.lt_or_ge k c.frame.length with hcut | hwhole
      · rcases chunkPass_cut hfuel' hc acc (frames chunks ++ tail) hcut with hp | ⟨e, hp⟩
        · simp [loop, hp] at h
        · simp [loop, hp] at h
      · rw [loop_more (chunkPass_take hfuel' hc acc _ hwhole)] at h
        have hk' : k - c.frame.length + 2 < (frames chunks).length := by
          simp only [frames_cons, List.length_append] at hk
          omega
        obtain ⟨cs, c', cs', rfl, hfit, hover, hle, rfl⟩ := loop_cut hfuel tail hk' h
        refine ⟨c :: cs, c', cs', rfl, List.forall_mem_cons.2 ⟨hc, hfit⟩, hover, ?_, ?_⟩
        · simp only [frames_cons, List.length_append]
          omega
        · rw [bodyOf_cons, List.append_assoc]
    · rcases Nat.lt_or_ge k 16 with hcut | hlong
      · have hne : ¬delimiter <:+: (c.frame ++ (frames chunks ++ tail)).take k := by
          have hpre := overlong_noDelimiter hc (frames chunks ++ tail)
          rw [← Nat.min_eq_left hcut.le, ← List.take_take]
          exact fun h => hpre (h.trans (List.take_prefix _ _).isInfix)
        have hlen : ((c.frame ++ (frames chunks ++ tail)).take k).length < 16 := by simp; omega
        have hp : chunkPass fuel (acc, (c.frame ++ (frames chunks ++ tail)).take k) = none := by
          rw [chunkPass, readChunkLength_stuck fuel hne hlen]
        simp [loop, hp] at h
      · obtain ⟨rest', hp⟩ := chunkPass_overlong hfuel hc acc (frames chunks ++ tail) hlong
        rw [loop_done hp] at h
        refine ⟨[], c, chunks, rfl, by simp, hc, by simpa using hlong, ?_⟩
        simp_all

/-- At a length line that does not fit and whose first 16 bytes came, the chunk loop leaves. -/
theorem loop_overlong_frames {fuel : ℕ} (hfuel : 17 ≤ fuel) {cs : List Chunk} {c : Chunk}
    (hfit : ∀ x ∈ cs, x.Fits) (hc : ¬c.Fits) (tail : List UInt8) {k : ℕ}
    (hk : (frames cs).length + 16 ≤ k) :
    ∃ rest, loop (chunkPass fuel) (1 + cs.length)
      ([], (frames cs ++ (c.frame ++ tail)).take k) = some (.ok (bodyOf cs, rest)) := by
  obtain ⟨rest, hp⟩ := chunkPass_overlong hfuel hc (bodyOf cs) tail
    (show 16 ≤ k - (frames cs).length by omega)
  refine ⟨rest, ?_⟩
  rw [List.take_append, List.take_of_length_le (by omega), loop_frames (by omega) hfit,
    List.nil_append, loop_done hp]

/-! ## When a cut report is rejected -/

variable {parse mode}

theorem POST_report (hmode : mode ≠ .slowFail) (body : List UInt8) (n : ℕ) :
    POST parse mode "/api/v2/reports" body n =
      match parse body with
      | none => (500, n)
      | some spans => (200, n + spans.length) := by
  cases hb : parse body <;> cases mode <;> simp_all [POST]

/-- A body that reaches `POST` is rejected when it is not a report. -/
theorem neverAccepted_iff (hmode : mode ≠ .slowFail) (headers : Headers) (rfile : List UInt8) :
    NeverAccepted parse mode headers rfile ↔
      ∀ fuel body rest, readBody fuel headers rfile = some (.ok (body, rest)) →
        parse body = none := by
  constructor
  · intro h fuel body rest hbody
    cases hp : parse body with
    | none => rfl
    | some spans =>
      have hh : handleReport parse mode fuel headers rfile 0 = some (some 200, spans.length) := by
        simp [handleReport, hbody, POST_report hmode, hp]
      exact absurd rfl (h fuel 0 _ _ hh).1
  · intro h fuel n code n' hh
    obtain ⟨r, hr, heq⟩ := Option.map_eq_some_iff.1 hh
    rcases r with e | ⟨body, rest⟩
    · obtain ⟨rfl, rfl⟩ := Prod.mk.inj heq
      exact ⟨by simp, rfl⟩
    · have hp := h fuel body rest hr
      simp only [POST_report hmode, hp] at heq
      obtain ⟨rfl, rfl⟩ := Prod.mk.inj heq
      exact ⟨by simp, rfl⟩

/-- A report cut short before its last data byte is neither answered 200 nor counted if and
only if what came of it is not itself a report. -/
theorem cut_report_rejected_iff (parse : List UInt8 → Option (List Span)) {mode : Mode}
    (hmode : mode ≠ .slowFail) (f : Framing) {k : ℕ} (hk : f.BeforeLastByte k) :
    NeverAccepted parse mode f.headers (f.bytes.take k) ↔ f.Caught parse k := by
  rw [neverAccepted_iff hmode]
  cases f with
  | length body =>
    have htake : (body.take k).take body.length = body.take k :=
      List.take_of_length_le (List.length_take_le' k body)
    constructor
    · intro h
      exact h 0 _ _ (by rw [Framing.headers, Framing.bytes, readBody_length, htake])
    · intro h fuel b rest hbody
      rw [Framing.headers, Framing.bytes, readBody_length, htake] at hbody
      obtain ⟨rfl, -⟩ := Prod.mk.inj (Except.ok.inj (Option.some.inj hbody))
      exact h
  | chunked chunks zeros =>
    constructor
    · rintro h cs c cs' rfl hfit hc hle
      obtain ⟨rest, hloop⟩ := @loop_overlong_frames (17 + cs.length) (by omega) cs c hfit hc
        (frames cs' ++ lastLine zeros) _ hle
      refine h (17 + cs.length) (bodyOf cs) rest ?_
      rw [Framing.headers, Framing.bytes, readBody_chunked, frames_append, frames_cons]
      simp only [List.append_assoc]
      exact loop_mono hloop (by omega)
    · intro h fuel b rest hbody
      have hbody' := readBody_mono (le_max_left fuel 17) hbody
      rw [Framing.headers, Framing.bytes, readBody_chunked] at hbody'
      obtain ⟨cs, c, cs', rfl, hfit, hc, hle, rfl⟩ :=
        loop_cut (le_max_right fuel 17) (lastLine zeros) hk hbody'
      rw [List.nil_append]
      exact h cs c cs' rfl hfit hc hle

/-- A chunked report cut in its second chunk is rejected. -/
theorem cut_report_rejected_iff_sample :
    NeverAccepted parseSpans .typical (Framing.chunked sampleChunks 2).headers
        ((Framing.chunked sampleChunks 2).bytes.take 20) ↔
      (Framing.chunked sampleChunks 2).Caught parseSpans 20 :=
  cut_report_rejected_iff parseSpans (by decide) (.chunked sampleChunks 2) (by decide)

/-- Two empty spans sent with `Content-Length: 4`, cut after the first : the satellite
answers 200 and counts one span. -/
theorem cut_report_accepted :
    ¬∀ (f : Framing) (k : ℕ), f.BeforeLastByte k →
      NeverAccepted parseSpans .typical f.headers (f.bytes.take k) := by
  intro h
  have hcut := h (.length [26, 0, 26, 0]) 2 (by decide)
  exact (hcut 0 0 (some 200) 1 (by decide)).1 rfl

end TracerBench
