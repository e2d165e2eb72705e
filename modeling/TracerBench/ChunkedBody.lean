import TracerBench.Loop
import TracerBench.Python
import Mathlib.Data.List.Basic
import Mathlib.Tactic.Ring

/-!
# Reading a request body

`ChunkedRequestHandler` of `benchmark/utils.py`. The connection is the list of bytes it
still delivers, after which every `read` returns `b''`. `do_POST` reads the body in one
`read` when there is a `Content-Length`, and otherwise chunk by chunk : a length line of
at most 16 bytes with its CRLF, the data, and a CRLF, up to a length of zero or less.

Both loops take fuel, and `none` means that the handler thread is still going round. It
does so for good when the connection ends inside a length line, since `read(1)` then
returns nothing and the buffer stays below its 16 bytes (`readChunkLength_stuck`).

`doPOST_frames` : chunks whose length lines have at most 14 digits, then a line of
zeros, are read back as the body they were cut from, and nothing after them is read.
-/

namespace TracerBench

/-- The headers `do_POST` looks up. A name is matched in any case, and the first field of
that name counts. -/
structure Headers where
  contentLength : Option (List UInt8)
  transferEncoding : Option (List UInt8)

/-- `'chunked'`. -/
def chunkedCoding : List UInt8 :=
  [99, 104, 117, 110, 107, 101, 100]

/-- `b'\r\n'`. -/
def delimiter : List UInt8 :=
  [13, 10]

@[simp] theorem length_delimiter : delimiter.length = 2 :=
  rfl

def maxBytes : ℕ :=
  16

/-! ## The code -/

/-- `rfile.read(n)` : -1 reads to the end of file, and less is refused. -/
def read (n : ℤ) (rfile : List UInt8) : Except PyError (List UInt8 × List UInt8) :=
  if n = -1 then .ok (rfile, [])
  else if n < 0 then .error .valueError
  else .ok (rfile.take n.toNat, rfile.drop n.toNat)

/-- `_read_delimiter`. -/
def readDelimiter (rfile : List UInt8) : Except PyError (Bool × List UInt8) :=
  let bytesRead := rfile.take delimiter.length
  -- the test for '' compares bytes with a str, which are never equal
  if bytesRead ≠ delimiter then .error (.exception "Unable to read delimiter.")
  else .ok (true, rfile.drop delimiter.length)

/-- One pass of the loop of `_read_chunk_length`, on the buffer and the connection. -/
def chunkLengthPass :
    List UInt8 × List UInt8 → Option (Pass (List UInt8 × List UInt8) (ℤ × List UInt8))
  | (buf, rfile) =>
    if buf.length < maxBytes then
      let c := rfile.take 1
      let buf := buf ++ c
      if buf.drop (buf.length - delimiter.length) = delimiter then
        match int 16 (buf.take (buf.length - delimiter.length)) with
        | some n => some (.done (n, rfile.drop 1))
        | none => some (.done (-1, rfile.drop 1))
      else some (.more (buf, rfile.drop 1))
    else some (.done (-1, rfile))

/-- `_read_chunk_length`. -/
def readChunkLength (fuel : ℕ) (rfile : List UInt8) : Option (ℤ × List UInt8) :=
  loop chunkLengthPass fuel ([], rfile)

/-- One pass of the chunk loop of `do_POST`, on `binary_body` and the connection. -/
def chunkPass (fuel : ℕ) : List UInt8 × List UInt8 →
    Option (Pass (List UInt8 × List UInt8) (Except PyError (List UInt8 × List UInt8)))
  | (binaryBody, rfile) =>
    match readChunkLength fuel rfile with
    | none => none
    | some (readLen, rfile) =>
      if readLen ≤ 0 then some (.done (.ok (binaryBody, rfile)))
      else
        let binaryChunk := rfile.take readLen.toNat
        match readDelimiter (rfile.drop readLen.toNat) with
        | .error e => some (.done (.error e))
        | .ok (false, rfile) => some (.done (.ok (binaryBody ++ binaryChunk, rfile)))
        | .ok (true, rfile) => some (.more (binaryBody ++ binaryChunk, rfile))

/-- `do_POST` up to its call of `self.POST()` : `binary_body` and what is left of the
connection, or the error that keeps `POST` from being called. -/
def readBody (fuel : ℕ) (headers : Headers) (rfile : List UInt8) :
    Option (Except PyError (List UInt8 × List UInt8)) :=
  match headers.contentLength with
  | some text =>
    match int 10 text with
    | none => some (.error .valueError)
    | some contentLength => some (read contentLength rfile)
  | none =>
    if headers.transferEncoding = some chunkedCoding then
      loop (chunkPass fuel) fuel ([], rfile)
    else
      some (.error (.exception "Missing Content-Length or Transfer-Encoding headers"))

/-- What a call of `do_POST` did : the `binary_body` each call of `POST` found, and what it
left of the connection. -/
structure Delivery where
  posted : List (List UInt8)
  rfile : List UInt8
  deriving DecidableEq

/-- `do_POST`. -/
def doPOST (fuel : ℕ) (headers : Headers) (rfile : List UInt8) :
    Option (Except PyError Delivery) :=
  (readBody fuel headers rfile).map fun r =>
    match r with
    | .error e => .error e
    | .ok (binaryBody, rfile) => .ok ⟨[binaryBody], rfile⟩

/-! ## The length reader

It stops at the first CRLF, or at 16 bytes with no CRLF among them. -/

/-- Bytes with no line feed have no CRLF. -/
theorem noDelimiter_of_ne_lf {s : List UInt8} (hs : ∀ c ∈ s, c ≠ 10) : ¬delimiter <:+: s :=
  fun h => hs 10 (h.subset (by simp [delimiter])) rfl

/-- Reading a byte that does not complete a CRLF goes round again. -/
theorem chunkLengthPass_more {buf rfile : List UInt8} (hlen : buf.length < 16)
    (hbuf : ¬delimiter <:+: buf ++ rfile.take 1) :
    chunkLengthPass (buf, rfile) = some (.more (buf ++ rfile.take 1, rfile.drop 1)) := by
  have hend : (buf ++ rfile.take 1).drop ((buf ++ rfile.take 1).length - delimiter.length) ≠
      delimiter := by
    intro h
    exact hbuf (List.IsSuffix.isInfix (List.suffix_iff_eq_drop.2 h.symm))
  simp only [chunkLengthPass, maxBytes, if_pos hlen, if_neg hend]

theorem chunkLengthPass_end {buf rfile : List UInt8} (hlen : buf.length < 15) :
    chunkLengthPass (buf ++ [13], 10 :: rfile) =
      some (.done ((int 16 buf).getD (-1), rfile)) := by
  have happ : buf ++ [13] ++ [10] = buf ++ delimiter := by simp [delimiter]
  have hsub : (buf ++ delimiter).length - delimiter.length = buf.length := by simp
  have h16 : (buf ++ [13]).length < maxBytes := by simp [maxBytes]; omega
  simp only [chunkLengthPass, if_pos h16, List.take_succ_cons, List.take_zero, happ, hsub,
    List.drop_left, List.take_left, if_true, List.drop_succ_cons, List.drop_zero]
  cases int 16 buf <;> rfl

/-- Bytes that complete no CRLF and fit into the buffer are moved to it. -/
theorem loop_buffer {rfile : List UInt8} : ∀ {s buf : List UInt8} (k : ℕ),
    ¬delimiter <:+: buf ++ s → (buf ++ s).length ≤ 16 →
    loop chunkLengthPass (k + s.length) (buf, s ++ rfile) =
      loop chunkLengthPass k (buf ++ s, rfile)
  | [], buf, k, _, _ => by simp
  | c :: s, buf, k, hs, hlen => by
    have happ : buf ++ c :: s = buf ++ [c] ++ s := by simp
    have hbuf : buf.length < 16 := by simp at hlen; omega
    rw [happ] at hs hlen ⊢
    have hpass := @chunkLengthPass_more buf (c :: (s ++ rfile)) hbuf
      fun h => hs (h.trans (List.prefix_append _ s).isInfix)
    rw [List.cons_append, List.length_cons, ← Nat.add_assoc, loop_more hpass]
    exact loop_buffer k hs hlen

/-- A line that the length reader reads to the end : at most 14 bytes, and no CRLF before
the one that ends it. -/
def IsLine (line : List UInt8) : Prop :=
  line.length ≤ 14 ∧ ¬delimiter <:+: line ++ [13]

instance (line : List UInt8) : Decidable (IsLine line) :=
  inferInstanceAs (Decidable (_ ∧ _))

theorem noDelimiter_numeral {line : List UInt8} (hline : IsNumeral 16 line) :
    ¬delimiter <:+: line ++ [13] := by
  refine noDelimiter_of_ne_lf fun c hc => ?_
  rcases List.mem_append.1 hc with h | h
  · exact ne_of_isDigit (by decide) (hline.2 c h)
  · rw [List.mem_singleton.1 h]
    decide

theorem readChunkLength_line {fuel : ℕ} (hfuel : 16 ≤ fuel) {line : List UInt8}
    (hline : IsLine line) (rfile : List UInt8) :
    readChunkLength fuel (line ++ delimiter ++ rfile) =
      some ((int 16 line).getD (-1), rfile) := by
  obtain ⟨hlen, hfirst⟩ := hline
  have happ : line ++ delimiter ++ rfile = (line ++ [13]) ++ 10 :: rfile := by simp [delimiter]
  have h := @loop_buffer (10 :: rfile) (line ++ [13]) [] 1 (by simpa using hfirst)
    (by simp; omega)
  rw [List.nil_append, loop_done (chunkLengthPass_end (by omega))] at h
  rw [happ]
  refine loop_mono h ?_
  simp
  omega

/-- A length line of at most 14 digits is read up to its CRLF. -/
theorem readChunkLength_numeral {fuel : ℕ} (hfuel : 16 ≤ fuel) {line : List UInt8}
    (hline : IsNumeral 16 line) (hlen : line.length ≤ 14) (rfile : List UInt8) :
    readChunkLength fuel (line ++ delimiter ++ rfile) =
      some ((numeralVal 16 line : ℤ), rfile) := by
  rw [readChunkLength_line hfuel ⟨hlen, noDelimiter_numeral hline⟩, int_numeral (by omega) hline,
    Option.getD_some]

/-- Sixteen bytes with no CRLF among them end the length reader with -1. -/
theorem readChunkLength_overlong {fuel : ℕ} (hfuel : 17 ≤ fuel) {s : List UInt8}
    (hs : ¬delimiter <:+: s) (hlen : s.length = 16) (rfile : List UInt8) :
    readChunkLength fuel (s ++ rfile) = some (-1, rfile) := by
  have h := @loop_buffer rfile s [] 1 (by simpa using hs) (by simp [hlen])
  rw [List.nil_append, loop_done (b := (-1, rfile)) (by simp [chunkLengthPass, maxBytes, hlen])]
    at h
  exact loop_mono h (by omega)

/-- When the connection ends within the first 16 bytes and no CRLF came, the length reader
never returns : `read(1)` returns nothing and the buffer stays as it is. -/
theorem readChunkLength_stuck (fuel : ℕ) {rfile : List UInt8} (hs : ¬delimiter <:+: rfile)
    (hlen : rfile.length < 16) : readChunkLength fuel rfile = none := by
  refine loop_eq_none (I := fun p => (p.1 ++ p.2).length < 16 ∧ ¬delimiter <:+: p.1 ++ p.2) ?_
    ⟨by simpa using hlen, by simpa using hs⟩
  rintro ⟨buf, rfile⟩ ⟨hlt, hne⟩
  have happ : buf ++ rfile.take 1 ++ rfile.drop 1 = buf ++ rfile := by
    rw [List.append_assoc, List.take_append_drop]
  refine Or.inr ⟨_, chunkLengthPass_more ?_ fun h => hne ?_, ?_⟩
  · simp at hlt
    omega
  · rw [← happ]
    exact h.trans (List.prefix_append _ _).isInfix
  · simp only [happ]
    exact ⟨hlt, hne⟩

/-! ## Fuel -/

theorem chunkPass_mono {fuel fuel' : ℕ} (hle : fuel ≤ fuel') :
    ∀ s p, chunkPass fuel s = some p → chunkPass fuel' s = some p := by
  rintro ⟨binaryBody, rfile⟩ p h
  rw [chunkPass] at h ⊢
  cases hr : readChunkLength fuel rfile with
  | none => simp [hr] at h
  | some r =>
    rw [hr] at h
    rw [show readChunkLength fuel' rfile = some r from loop_mono hr hle]
    exact h

/-- A body read stays read with more fuel. -/
theorem readBody_mono {fuel fuel' : ℕ} (hle : fuel ≤ fuel') {headers : Headers}
    {rfile : List UInt8} {r : Except PyError (List UInt8 × List UInt8)}
    (h : readBody fuel headers rfile = some r) : readBody fuel' headers rfile = some r := by
  unfold readBody at h ⊢
  obtain ⟨_ | text, transferEncoding⟩ := headers
  · simp only at h ⊢
    split_ifs at h ⊢
    · exact loop_mono (loop_mono_body (chunkPass_mono hle) h) hle
    · exact h
  · exact h

/-! ## Chunks -/

/-- A chunk as it is sent : its data, and a length line whose hexadecimal digits, of either
case and after any number of zeros, are worth the length of the data. -/
structure Chunk where
  line : List UInt8
  data : List UInt8
  data_ne : data ≠ []
  line_numeral : IsNumeral 16 line
  line_val : numeralVal 16 line = data.length

namespace Chunk

/-- The length reader's 16 bytes hold at most 14 digits and the CRLF. -/
def Fits (c : Chunk) : Prop :=
  c.line.length ≤ 14

/-- The bytes of a chunk. -/
def frame (c : Chunk) : List UInt8 :=
  c.line ++ delimiter ++ (c.data ++ delimiter)

end Chunk

/-- The body a list of chunks was cut from. -/
def bodyOf (chunks : List Chunk) : List UInt8 :=
  (chunks.map Chunk.data).flatten

/-- The bytes of a list of chunks. -/
def frames (chunks : List Chunk) : List UInt8 :=
  (chunks.map Chunk.frame).flatten

@[simp] theorem bodyOf_nil : bodyOf [] = [] :=
  rfl

@[simp] theorem bodyOf_cons (c : Chunk) (cs : List Chunk) :
    bodyOf (c :: cs) = c.data ++ bodyOf cs :=
  rfl

@[simp] theorem frames_nil : frames [] = [] :=
  rfl

@[simp] theorem frames_cons (c : Chunk) (cs : List Chunk) :
    frames (c :: cs) = c.frame ++ frames cs :=
  rfl

theorem frames_append (cs cs' : List Chunk) : frames (cs ++ cs') = frames cs ++ frames cs' := by
  simp [frames]

/-- The line that ends a chunked body : `n` zeros and a CRLF. -/
def lastLine (n : ℕ) : List UInt8 :=
  List.replicate n 48 ++ delimiter

theorem isNumeral_zeros {n : ℕ} (hn : 1 ≤ n) : IsNumeral 16 (List.replicate n 48) := by
  refine ⟨by simp; omega, fun c hc => ?_⟩
  rw [List.eq_of_mem_replicate hc]
  decide

theorem numeralVal_zeros : ∀ n, numeralVal 16 (List.replicate n 48) = 0
  | 0 => rfl
  | n + 1 => by
    rw [List.replicate_succ, numeralVal_cons, numeralVal_zeros n]
    simp [show digitVal 48 = some 0 by decide]

/-- A pass over one chunk appends its data and leaves what comes after it. -/
theorem chunkPass_frame {fuel : ℕ} (hfuel : 16 ≤ fuel) {c : Chunk} (hc : c.Fits)
    (acc rfile : List UInt8) :
    chunkPass fuel (acc, c.frame ++ rfile) = some (.more (acc ++ c.data, rfile)) := by
  have hpos : ¬(c.data.length : ℤ) ≤ 0 := by
    have := List.length_pos_of_ne_nil c.data_ne
    omega
  have hread : readDelimiter (delimiter ++ rfile) = .ok (true, rfile) := by
    simp [readDelimiter, delimiter]
  have happ : c.frame ++ rfile = c.line ++ delimiter ++ (c.data ++ (delimiter ++ rfile)) := by
    simp [Chunk.frame]
  rw [chunkPass, happ, readChunkLength_numeral hfuel c.line_numeral hc, c.line_val]
  simp only [if_neg hpos, Int.toNat_natCast, List.drop_left, List.take_left, hread]

theorem chunkPass_last {fuel : ℕ} (hfuel : 16 ≤ fuel) {n : ℕ} (hn : 1 ≤ n) (hn' : n ≤ 14)
    (acc rfile : List UInt8) :
    chunkPass fuel (acc, lastLine n ++ rfile) = some (.done (.ok (acc, rfile))) := by
  have h := readChunkLength_numeral hfuel (isNumeral_zeros hn) (by simpa using hn') rfile
  rw [numeralVal_zeros] at h
  rw [chunkPass, lastLine, h]
  simp

/-- The chunk loop over well-formed chunks : it has appended their data once it reaches
what follows them. -/
theorem loop_frames {fuel : ℕ} (hfuel : 16 ≤ fuel) : ∀ {chunks : List Chunk},
    (∀ c ∈ chunks, c.Fits) → ∀ (k : ℕ) (acc rfile : List UInt8),
    loop (chunkPass fuel) (k + chunks.length) (acc, frames chunks ++ rfile) =
      loop (chunkPass fuel) k (acc ++ bodyOf chunks, rfile)
  | [], _, k, acc, rfile => by simp
  | c :: chunks, h, k, acc, rfile => by
    rw [frames_cons, List.append_assoc, List.length_cons, ← Nat.add_assoc,
      loop_more (chunkPass_frame hfuel (h c (by simp)) acc _),
      loop_frames hfuel (fun x hx => h x (by simp [hx])), bodyOf_cons, List.append_assoc]

/-! ## Chunked and fixed-length transfer -/

/-- The headers of a chunked request. -/
def chunkedHeaders : Headers :=
  ⟨none, some chunkedCoding⟩

/-- The headers of a request with `Content-Length: n`. -/
def lengthHeaders (n : ℕ) : Headers :=
  ⟨some (str n), none⟩

theorem readBody_chunked (fuel : ℕ) (rfile : List UInt8) :
    readBody fuel chunkedHeaders rfile = loop (chunkPass fuel) fuel ([], rfile) := by
  simp only [readBody, chunkedHeaders, if_true]

/-- With a `Content-Length`, the body is what one `read` delivers. -/
theorem readBody_length (fuel n : ℕ) (rfile : List UInt8) :
    readBody fuel (lengthHeaders n) rfile = some (.ok (rfile.take n, rfile.drop n)) := by
  have hn : ¬(n : ℤ) = -1 := by omega
  have hn' : ¬(n : ℤ) < 0 := by omega
  simp only [readBody, lengthHeaders, int_str, read, if_neg hn, if_neg hn', Int.toNat_natCast]

/-- Chunks whose length lines fit, then a line of zeros, are read back as the body they
were cut from, and nothing after that line is read. -/
theorem doPOST_frames {fuel : ℕ} {chunks : List Chunk} (hfit : ∀ c ∈ chunks, c.Fits) {n : ℕ}
    (hn : 1 ≤ n) (hn' : n ≤ 14) (hfuel : chunks.length + 16 ≤ fuel) (rfile : List UInt8) :
    doPOST fuel chunkedHeaders (frames chunks ++ lastLine n ++ rfile) =
      some (.ok ⟨[bodyOf chunks], rfile⟩) := by
  obtain ⟨k, rfl⟩ : ∃ k, fuel = k + 1 + chunks.length := ⟨fuel - chunks.length - 1, by omega⟩
  have hread : readBody (k + 1 + chunks.length) chunkedHeaders
      (frames chunks ++ lastLine n ++ rfile) = some (.ok (bodyOf chunks, rfile)) := by
    rw [readBody_chunked, List.append_assoc, loop_frames (by omega) hfit, List.nil_append,
      loop_done (chunkPass_last (by omega) hn hn' _ _)]
  rw [doPOST, hread]
  rfl

/-- Chunked and fixed-length transfer agree. However a body is cut into non-empty chunks,
`do_POST` calls `POST` once, with the whole body, and reads up to the CRLF of the line of
zeros; sent with its `Content-Length`, the body arrives the same. -/
theorem doPOST_chunked_eq_length (body : List UInt8) (chunks : List Chunk)
    (hbody : bodyOf chunks = body) (hfit : ∀ c ∈ chunks, c.Fits) (n : ℕ) (hn : 1 ≤ n)
    (hn' : n ≤ 14) (rfile rfile' : List UInt8) :
    (∃ fuel, ∀ fuel' ≥ fuel,
      doPOST fuel' chunkedHeaders (frames chunks ++ lastLine n ++ rfile) =
        some (.ok ⟨[body], rfile⟩)) ∧
    ∀ fuel, doPOST fuel (lengthHeaders body.length) (body ++ rfile') =
      some (.ok ⟨[body], rfile'⟩) := by
  refine ⟨⟨chunks.length + 16, fun fuel' hfuel => ?_⟩, fun fuel => ?_⟩
  · rw [doPOST_frames hfit hn hn' hfuel, hbody]
  · rw [doPOST, readBody_length, List.take_left, List.drop_left]
    rfl

/-- `3\r\nabc\r\n0A\r\n` and ten more bytes, CRLFs among them, then `00\r\n`. -/
def sampleChunks : List Chunk :=
  [⟨[51], [97, 98, 99], by decide, by decide, by decide⟩,
    ⟨[48, 65], [13, 10, 48, 13, 10, 65, 66, 67, 13, 10], by decide, by decide, by decide⟩]

theorem doPOST_chunked_eq_length_sample :
    (∃ fuel, ∀ fuel' ≥ fuel,
      doPOST fuel' chunkedHeaders (frames sampleChunks ++ lastLine 2 ++ [71]) =
        some (.ok ⟨[[97, 98, 99, 13, 10, 48, 13, 10, 65, 66, 67, 13, 10]], [71]⟩)) ∧
    ∀ fuel, doPOST fuel (lengthHeaders 13)
        ([97, 98, 99, 13, 10, 48, 13, 10, 65, 66, 67, 13, 10] ++ []) =
      some (.ok ⟨[[97, 98, 99, 13, 10, 48, 13, 10, 65, 66, 67, 13, 10]], []⟩) :=
  doPOST_chunked_eq_length _ sampleChunks rfl (by simp [sampleChunks, Chunk.Fits]) 2 (by decide)
    (by decide) [71] []

end TracerBench
