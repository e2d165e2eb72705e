import TracerBench.ChunkedBody

/-!
# What the chunk reader takes for a body

The chunk loop against any bytes, well formed or not. `int()` decides what a length line
says, so a chunk may have a sign, an underscore, spaces or a `0x` in its line
(`ReadChunk`). The loop stops with the data it has at a line of value zero or less, at a
line that is no number, for which the length reader answers -1, and at 16 bytes with no
CRLF, for which it answers -1 too (`Stops`). It never stops when the connection ends inside
a length line, and raises when it ends anywhere else.

`doPOST_returns_iff` says that this is all : `do_POST` reaches `POST` exactly on such
chunks followed by such a stop. So it takes only well-formed bodies where all length lines
are (`accepts_wellFormed_iff`), and ends unless the connection is cut inside a length line
(`reading_ends_iff`).
-/

namespace TracerBench

/-! ## Chunks as the code reads them -/

/-- A chunk by its length line as `int` reads it. -/
structure ReadChunk where
  line : List UInt8
  data : List UInt8
  data_ne : data ≠ []
  isLine : IsLine line
  line_val : int 16 line = some (data.length : ℤ)

namespace ReadChunk

def frame (c : ReadChunk) : List UInt8 :=
  c.line ++ delimiter ++ (c.data ++ delimiter)

/-- The bytes of a list of chunks. -/
def frames (cs : List ReadChunk) : List UInt8 :=
  (cs.map frame).flatten

def bodyOf (cs : List ReadChunk) : List UInt8 :=
  (cs.map data).flatten

@[simp] theorem frames_nil : frames [] = [] :=
  rfl

@[simp] theorem frames_cons (c : ReadChunk) (cs : List ReadChunk) :
    frames (c :: cs) = c.frame ++ frames cs :=
  rfl

@[simp] theorem bodyOf_nil : bodyOf [] = [] :=
  rfl

@[simp] theorem bodyOf_cons (c : ReadChunk) (cs : List ReadChunk) :
    bodyOf (c :: cs) = c.data ++ bodyOf cs :=
  rfl

end ReadChunk

/-- Bytes at which the chunk loop stops and takes what it has for the body. -/
inductive Stops : List UInt8 → Prop
  | line {line : List UInt8} (isLine : IsLine line) (hval : (int 16 line).getD (-1) ≤ 0) :
    Stops (line ++ delimiter)
  | overlong {s : List UInt8} (hlen : s.length = 16) (hs : ¬delimiter <:+: s) : Stops s

/-- A connection that ends inside a length line, or before it. -/
def EndsInLine (rfile : List UInt8) : Prop :=
  rfile.length < 16 ∧ ¬delimiter <:+: rfile

/-! ## One pass -/

/-- Bytes with a CRLF have a first one. -/
theorem exists_line : ∀ {s : List UInt8}, delimiter <:+: s →
    ∃ line rest, s = line ++ delimiter ++ rest ∧ ¬delimiter <:+: line ++ [13] := by
  intro s
  induction s using List.reverseRecOn with
  | nil => simp [delimiter]
  | append_singleton s c ih =>
    intro h
    by_cases hs : delimiter <:+: s
    · obtain ⟨line, rest, rfl, hline⟩ := ih hs
      exact ⟨line, rest ++ [c], by simp, hline⟩
    · obtain ⟨line, hline⟩ := (List.infix_concat_iff.1 h).resolve_right hs
      have happ : (line ++ [13]) ++ [10] = s ++ [c] := by rw [← hline]; simp [delimiter]
      obtain ⟨rfl, -⟩ := List.append_inj' happ rfl
      exact ⟨line, [], by rw [← hline, List.append_nil], hs⟩

/-- What the length reader does with a connection. -/
inductive LengthRead : List UInt8 → Prop
  | stuck {rfile : List UInt8} (h : EndsInLine rfile) : LengthRead rfile
  | overlong {s : List UInt8} (rest : List UInt8) (hlen : s.length = 16)
    (hs : ¬delimiter <:+: s) : LengthRead (s ++ rest)
  | line {line : List UInt8} (rest : List UInt8) (isLine : IsLine line) :
    LengthRead (line ++ delimiter ++ rest)

theorem lengthRead (rfile : List UInt8) : LengthRead rfile := by
  by_cases h : delimiter <:+: rfile.take 16
  · obtain ⟨line, rest, htake, hfirst⟩ := exists_line h
    have hlen := congrArg List.length htake
    have happ : rfile = line ++ delimiter ++ (rest ++ rfile.drop 16) := by
      rw [← List.append_assoc, ← htake, List.take_append_drop]
    rw [happ]
    refine .line _ ⟨?_, hfirst⟩
    simp at hlen
    omega
  · rcases Nat.lt_or_ge rfile.length 16 with hlt | hge
    · rw [List.take_of_length_le hlt.le] at h
      exact .stuck ⟨hlt, h⟩
    · rw [← List.take_append_drop 16 rfile]
      exact .overlong _ (by simpa using hge) h

/-- What a pass of the chunk loop does with a connection. -/
inductive PassRead : List UInt8 → Prop
  | stuck {rfile : List UInt8} (h : EndsInLine rfile) : PassRead rfile
  | stop {s : List UInt8} (rest : List UInt8) (h : Stops s) : PassRead (s ++ rest)
  | chunk (c : ReadChunk) (rest : List UInt8) : PassRead (c.frame ++ rest)
  | error {rfile : List UInt8} (e : PyError)
    (h : ∀ fuel acc, 17 ≤ fuel → chunkPass fuel (acc, rfile) = some (.done (.error e))) :
    PassRead rfile

theorem readDelimiter_cases (rfile : List UInt8) :
    (∃ rest, rfile = delimiter ++ rest ∧ readDelimiter rfile = .ok (true, rest)) ∨
      ∃ e, readDelimiter rfile = .error e := by
  by_cases h : rfile.take delimiter.length = delimiter
  · refine Or.inl ⟨rfile.drop delimiter.length, ?_, by rw [readDelimiter, if_neg (not_not.2 h)]⟩
    conv_lhs => rw [← List.take_append_drop delimiter.length rfile, h]
  · exact Or.inr ⟨_, by rw [readDelimiter, if_pos h]⟩

theorem passRead (rfile : List UInt8) : PassRead rfile := by
  cases lengthRead rfile with
  | stuck h => exact .stuck h
  | overlong rest hlen hs => exact .stop rest (.overlong hlen hs)
  | @line line rest isLine =>
    rcases lt_or_ge 0 ((int 16 line).getD (-1)) with hpos | hstop
    · obtain ⟨n, hn⟩ : ∃ n : ℕ, int 16 line = some (n : ℤ) := by
        cases hint : int 16 line with
        | none => simp [hint] at hpos
        | some k =>
          rw [hint, Option.getD_some] at hpos
          exact ⟨k.toNat, by rw [Int.toNat_of_nonneg hpos.le]⟩
      rw [hn, Option.getD_some] at hpos
      rcases readDelimiter_cases (rest.drop n) with ⟨rest', hrest, -⟩ | ⟨e, he⟩
      · have hlen : n ≤ rest.length := by
          have hlen := congrArg List.length hrest
          simp at hlen
          omega
        have htake : (rest.take n).length = n := by simpa using hlen
        have hc := PassRead.chunk ⟨line, rest.take n, by
          intro hnil
          rw [hnil] at htake
          simp at htake
          omega, isLine, by rw [hn, htake]⟩ rest'
        have happ : line ++ delimiter ++ rest =
            line ++ delimiter ++ (rest.take n ++ delimiter) ++ rest' := by
          rw [List.append_assoc _ (rest.take n ++ delimiter), List.append_assoc (rest.take n),
            ← hrest, List.take_append_drop]
        rw [happ]
        exact hc
      · refine .error e fun fuel acc hfuel => ?_
        rw [chunkPass, readChunkLength_line (by omega) isLine, hn, Option.getD_some]
        simp only [if_neg (not_le.2 hpos), Int.toNat_natCast, he]
    · exact .stop rest (.line isLine hstop)

theorem chunkPass_stuck {rfile : List UInt8} (h : EndsInLine rfile) (fuel : ℕ)
    (acc : List UInt8) : chunkPass fuel (acc, rfile) = none := by
  rw [chunkPass, readChunkLength_stuck fuel h.2 h.1]

theorem chunkPass_stop {s : List UInt8} (h : Stops s) {fuel : ℕ} (hfuel : 17 ≤ fuel)
    (acc rest : List UInt8) :
    chunkPass fuel (acc, s ++ rest) = some (.done (.ok (acc, rest))) := by
  cases h with
  | line isLine hval =>
    rw [chunkPass, readChunkLength_line (by omega) isLine]
    simp only [if_pos hval]
  | overlong hlen hs =>
    rw [chunkPass, readChunkLength_overlong hfuel hs hlen]
    rfl

theorem chunkPass_chunk (c : ReadChunk) {fuel : ℕ} (hfuel : 17 ≤ fuel) (acc rest : List UInt8) :
    chunkPass fuel (acc, c.frame ++ rest) = some (.more (acc ++ c.data, rest)) := by
  have hpos : ¬(c.data.length : ℤ) ≤ 0 := by
    have := List.length_pos_of_ne_nil c.data_ne
    omega
  have hread : readDelimiter (delimiter ++ rest) = .ok (true, rest) := by
    simp [readDelimiter, delimiter]
  have happ : c.frame ++ rest = c.line ++ delimiter ++ (c.data ++ (delimiter ++ rest)) := by
    simp [ReadChunk.frame]
  rw [chunkPass, happ, readChunkLength_line (by omega) c.isLine, c.line_val, Option.getD_some]
  simp only [if_neg hpos, Int.toNat_natCast, List.drop_left, List.take_left, hread]

/-! ## The whole body -/

theorem loop_chunks {fuel : ℕ} (hfuel : 17 ≤ fuel) :
    ∀ (cs : List ReadChunk) (k : ℕ) (acc rest : List UInt8),
      loop (chunkPass fuel) (k + cs.length) (acc, ReadChunk.frames cs ++ rest) =
        loop (chunkPass fuel) k (acc ++ ReadChunk.bodyOf cs, rest)
  | [], k, acc, rest => by simp
  | c :: cs, k, acc, rest => by
    rw [ReadChunk.frames_cons, List.append_assoc, List.length_cons, ← Nat.add_assoc,
      loop_more (chunkPass_chunk c hfuel acc _), loop_chunks hfuel, ReadChunk.bodyOf_cons,
      List.append_assoc]

/-- What is left of a connection after the chunks at its front. -/
inductive BodyRead (rfile : List UInt8) : Prop
  | stuck (cs : List ReadChunk) (tail : List UInt8) (hrfile : rfile = ReadChunk.frames cs ++ tail)
    (h : EndsInLine tail)
  | stop (cs : List ReadChunk) (s rest : List UInt8)
    (hrfile : rfile = ReadChunk.frames cs ++ (s ++ rest)) (h : Stops s)
  | error (cs : List ReadChunk) (tail : List UInt8) (e : PyError)
    (hrfile : rfile = ReadChunk.frames cs ++ tail)
    (h : ∀ fuel acc, 17 ≤ fuel → chunkPass fuel (acc, tail) = some (.done (.error e)))

theorem BodyRead.cons (c : ReadChunk) {rest : List UInt8} (h : BodyRead rest) :
    BodyRead (c.frame ++ rest) := by
  cases h with
  | stuck cs tail hrest h => exact .stuck (c :: cs) tail (by simp [hrest]) h
  | stop cs s rest' hrest h => exact .stop (c :: cs) s rest' (by simp [hrest]) h
  | error cs tail e hrest h => exact .error (c :: cs) tail e (by simp [hrest]) h

theorem bodyRead (rfile : List UInt8) : BodyRead rfile := by
  induction hn : rfile.length using Nat.strongRecOn generalizing rfile with
  | _ n ih =>
    cases passRead rfile with
    | stuck h => exact .stuck [] rfile rfl h
    | stop rest h => exact .stop [] _ rest rfl h
    | error e h => exact .error [] rfile e rfl h
    | chunk c rest =>
      refine (ih rest.length ?_ rest rfl).cons c
      simp [← hn, ReadChunk.frame]
      omega

/-- An answer of `do_POST` stays its answer with more fuel. -/
theorem doPOST_returns {fuel : ℕ} {headers : Headers} {rfile : List UInt8}
    {r : Except PyError Delivery} (h : doPOST fuel headers rfile = some r) :
    Returns (fun fuel => doPOST fuel headers rfile) r := by
  obtain ⟨b, hb, rfl⟩ := Option.map_eq_some_iff.1 h
  exact ⟨fuel, fun _ hle => Option.map_eq_some_iff.2 ⟨b, readBody_mono hle hb, rfl⟩⟩

theorem readBody_chunks {fuel : ℕ} (cs : List ReadChunk) (hfuel : cs.length + 17 ≤ fuel)
    (rest : List UInt8) :
    readBody fuel chunkedHeaders (ReadChunk.frames cs ++ rest) =
      loop (chunkPass fuel) (fuel - cs.length) (ReadChunk.bodyOf cs, rest) := by
  obtain ⟨k, rfl⟩ : ∃ k, fuel = k + cs.length := ⟨fuel - cs.length, by omega⟩
  rw [readBody_chunked, loop_chunks (by omega), List.nil_append, Nat.add_sub_cancel]

theorem doPOST_stuck (cs : List ReadChunk) {tail : List UInt8} (h : EndsInLine tail)
    (fuel : ℕ) : doPOST fuel chunkedHeaders (ReadChunk.frames cs ++ tail) = none := by
  cases hr : readBody fuel chunkedHeaders (ReadChunk.frames cs ++ tail) with
  | none => rw [doPOST, hr, Option.map_none]
  | some r =>
    have hbig := readBody_mono (le_max_left fuel (cs.length + 17)) hr
    rw [readBody_chunks cs (le_max_right _ _), loop_eq_none (I := fun p => p.2 = tail) ?_ rfl]
      at hbig
    · simp at hbig
    · rintro ⟨acc, rfile⟩ rfl
      exact Or.inl (chunkPass_stuck h _ _)

/-- A pass that leaves the chunk loop after some chunks. -/
theorem readBody_done (cs : List ReadChunk) {tail : List UInt8}
    {r : Except PyError (List UInt8 × List UInt8)}
    (h : ∀ fuel, 17 ≤ fuel →
      chunkPass fuel (ReadChunk.bodyOf cs, tail) = some (.done r)) {fuel : ℕ}
    (hfuel : cs.length + 18 ≤ fuel) :
    readBody fuel chunkedHeaders (ReadChunk.frames cs ++ tail) = some r := by
  obtain ⟨k, hk⟩ : ∃ k, fuel - cs.length = k + 1 := ⟨fuel - cs.length - 1, by omega⟩
  rw [readBody_chunks cs (by omega), hk, loop_done (h fuel (by omega))]

theorem doPOST_stop (cs : List ReadChunk) {s : List UInt8} (h : Stops s) (rest : List UInt8) :
    Returns (fun fuel => doPOST fuel chunkedHeaders (ReadChunk.frames cs ++ (s ++ rest)))
      (.ok ⟨[ReadChunk.bodyOf cs], rest⟩) :=
  ⟨cs.length + 18, fun _ hle => Option.map_eq_some_iff.2
    ⟨_, readBody_done cs (fun _ hfuel => chunkPass_stop h hfuel _ rest) hle, rfl⟩⟩

theorem doPOST_error (cs : List ReadChunk) {tail : List UInt8} {e : PyError}
    (h : ∀ fuel acc, 17 ≤ fuel → chunkPass fuel (acc, tail) = some (.done (.error e))) :
    Returns (fun fuel => doPOST fuel chunkedHeaders (ReadChunk.frames cs ++ tail))
      (.error e) :=
  ⟨cs.length + 18, fun _ hle => Option.map_eq_some_iff.2
    ⟨_, readBody_done cs (fun fuel hfuel => h fuel _ hfuel) hle, rfl⟩⟩

/-- `do_POST` of a chunked request reaches `POST` exactly on chunks, as `int` reads their
lines, up to where the chunk loop stops. -/
theorem doPOST_returns_iff {rfile body rest : List UInt8} :
    Returns (fun fuel => doPOST fuel chunkedHeaders rfile) (.ok ⟨[body], rest⟩) ↔
      ∃ cs s, rfile = ReadChunk.frames cs ++ (s ++ rest) ∧ Stops s ∧
        body = ReadChunk.bodyOf cs := by
  constructor
  · intro h
    cases bodyRead rfile with
    | stuck cs tail hrfile hend =>
      obtain ⟨n, hn⟩ := h
      have hsome := hn n (Nat.le_refl n)
      simp [hrfile, doPOST_stuck cs hend n] at hsome
    | stop cs s rest' hrfile hstop =>
      subst hrfile
      have heq := h.unique (doPOST_stop cs hstop rest')
      simp only [Except.ok.injEq, Delivery.mk.injEq, List.cons.injEq, and_true] at heq
      obtain ⟨rfl, rfl⟩ := heq
      exact ⟨cs, s, rfl, hstop, rfl⟩
    | error cs tail e hrfile herr =>
      subst hrfile
      have heq := h.unique (doPOST_error cs herr)
      simp at heq
  · rintro ⟨cs, s, rfl, hstop, rfl⟩
    exact doPOST_stop cs hstop rest

/-! ## Well-formed bodies -/

/-- Two lines that end at the same bytes are one. -/
theorem line_unique {l l' rest rest' : List UInt8} (hl : ¬delimiter <:+: l ++ [13])
    (hl' : ¬delimiter <:+: l' ++ [13]) (h : l ++ delimiter ++ rest = l' ++ delimiter ++ rest') :
    l = l' ∧ rest = rest' := by
  -- the shorter of two different lines would end inside the longer one
  have hshort : ∀ {a b r r' : List UInt8}, ¬delimiter <:+: b ++ [13] →
      a ++ delimiter ++ r = b ++ delimiter ++ r' → ¬a.length < b.length := by
    intro a b r r' hb heq hlt
    have htake := congrArg (List.take (b.length + 1)) heq
    refine hb ?_
    have hb' : (b ++ delimiter ++ r').take (b.length + 1) = b ++ [13] := by
      simp [List.take_append, delimiter]
    rw [hb', List.take_append, List.take_of_length_le (by simp; omega)] at htake
    rw [← htake, List.append_assoc]
    exact List.infix_append' _ _ _
  have hlen : l.length = l'.length := by
    have h1 := hshort hl' h
    have h2 := hshort hl h.symm
    omega
  obtain ⟨h1, h2⟩ := List.append_inj h (by simp [hlen])
  exact ⟨(List.append_inj h1 hlen).1, h2⟩

/-- From `rfile` to `rest` stand well-formed chunks and a line of zeros, and `body` is the
data of the chunks. -/
def WellFormed (rfile body rest : List UInt8) : Prop :=
  ∃ (chunks : List Chunk) (n : ℕ), 1 ≤ n ∧ rfile = frames chunks ++ lastLine n ++ rest ∧
    body = bodyOf chunks

namespace ReadChunk

/-- A chunk whose line is a numeral, as it was sent. -/
def toChunk (c : ReadChunk) (h : IsNumeral 16 c.line) : Chunk where
  line := c.line
  data := c.data
  data_ne := c.data_ne
  line_numeral := h
  line_val := by
    have hval := c.line_val
    rw [int_numeral (by omega) h] at hval
    exact Int.ofNat.inj (Option.some.inj hval)

theorem exists_chunks : ∀ {cs : List ReadChunk}, (∀ c ∈ cs, IsNumeral 16 c.line) →
    ∃ chunks : List Chunk, TracerBench.frames chunks = frames cs ∧
      TracerBench.bodyOf chunks = bodyOf cs
  | [], _ => ⟨[], rfl, rfl⟩
  | c :: cs, h => by
    obtain ⟨chunks, hframes, hbody⟩ := exists_chunks fun x hx => h x (List.mem_cons_of_mem _ hx)
    refine ⟨c.toChunk (h c (by simp)) :: chunks, ?_, ?_⟩
    · rw [TracerBench.frames_cons, hframes, frames_cons]
      rfl
    · rw [TracerBench.bodyOf_cons, hbody, bodyOf_cons]
      rfl

end ReadChunk

/-- Bytes that end in a line of zeros have a CRLF. -/
theorem delimiter_infix_lastLine (s : List UInt8) (n : ℕ) : delimiter <:+: s ++ lastLine n :=
  (List.suffix_append _ _).isInfix.trans (List.suffix_append _ _).isInfix

/-- Where the loop stops at once, a well-formed body has no chunks. -/
theorem stops_unique {s : List UInt8} (h : Stops s) {chunks : List Chunk} {n : ℕ}
    (heq : s = frames chunks ++ lastLine n) : s = lastLine n := by
  cases h with
  | overlong hlen hs => exact absurd (heq ▸ delimiter_infix_lastLine _ n) hs
  | @line line isLine hval =>
    cases chunks with
    | nil => exact heq
    | cons c chunks =>
      have hsplit : line ++ delimiter ++ [] =
          c.line ++ delimiter ++ (c.data ++ delimiter ++ (frames chunks ++ lastLine n)) := by
        rw [List.append_nil, heq]
        simp [Chunk.frame]
      obtain ⟨-, hrest⟩ := line_unique isLine.2 (noDelimiter_numeral c.line_numeral) hsplit
      simp [delimiter] at hrest

/-- A well-formed body is read by its own lines. -/
theorem frames_unique {s : List UInt8} (h : Stops s) {n : ℕ} (hn : 1 ≤ n) :
    ∀ {cs : List ReadChunk} {chunks : List Chunk},
      ReadChunk.frames cs ++ s = frames chunks ++ lastLine n →
      (∀ c ∈ cs, IsNumeral 16 c.line) ∧ s = lastLine n
  | [], chunks, heq => ⟨by simp, stops_unique h heq⟩
  | c :: cs, [], heq => by
    have hsplit : c.line ++ delimiter ++ (c.data ++ delimiter ++ (ReadChunk.frames cs ++ s)) =
        List.replicate n 48 ++ delimiter ++ [] := by
      rw [ReadChunk.frames_cons, frames_nil, List.nil_append, lastLine] at heq
      rw [List.append_nil, ← heq]
      simp [ReadChunk.frame]
    obtain ⟨-, hrest⟩ := line_unique c.isLine.2 (noDelimiter_numeral (isNumeral_zeros hn)) hsplit
    simp [delimiter] at hrest
  | c :: cs, c' :: chunks, heq => by
    have hsplit : c.line ++ delimiter ++ (c.data ++ (delimiter ++ (ReadChunk.frames cs ++ s))) =
        c'.line ++ delimiter ++ (c'.data ++ (delimiter ++ (frames chunks ++ lastLine n))) := by
      simpa [ReadChunk.frame, Chunk.frame] using heq
    obtain ⟨hline, hrest⟩ :=
      line_unique c.isLine.2 (noDelimiter_numeral c'.line_numeral) hsplit
    have hnum : IsNumeral 16 c.line := hline ▸ c'.line_numeral
    have hval : numeralVal 16 c.line = c.data.length := (c.toChunk hnum).line_val
    have hlen : c.data.length = c'.data.length := by rw [← hval, ← c'.line_val, hline]
    obtain ⟨-, hrest⟩ := List.append_inj hrest hlen
    obtain ⟨hcs, hs⟩ := frames_unique h hn (List.append_cancel_left hrest)
    exact ⟨List.forall_mem_cons.2 ⟨hnum, hcs⟩, hs⟩

theorem wellFormed_iff {cs : List ReadChunk} {s rest : List UInt8} (h : Stops s) :
    WellFormed (ReadChunk.frames cs ++ (s ++ rest)) (ReadChunk.bodyOf cs) rest ↔
      (∀ c ∈ cs, IsNumeral 16 c.line) ∧ ∃ n, 1 ≤ n ∧ s = lastLine n := by
  constructor
  · rintro ⟨chunks, n, hn, heq, -⟩
    rw [← List.append_assoc] at heq
    obtain ⟨hcs, hs⟩ := frames_unique h hn (List.append_cancel_right heq)
    exact ⟨hcs, n, hn, hs⟩
  · rintro ⟨hcs, n, hn, rfl⟩
    obtain ⟨chunks, hframes, hbody⟩ := ReadChunk.exists_chunks hcs
    exact ⟨chunks, n, hn, by rw [hframes, List.append_assoc], hbody.symm⟩

/-- `do_POST` takes only well-formed chunked bodies from a connection if and only if all
length lines it meets on the way to `POST` are hexadecimal digits, and the last is zeros. -/
theorem accepts_wellFormed_iff (rfile : List UInt8) :
    (∀ fuel body rest, doPOST fuel chunkedHeaders rfile = some (.ok ⟨[body], rest⟩) →
      WellFormed rfile body rest) ↔
    ∀ cs s rest, rfile = ReadChunk.frames cs ++ (s ++ rest) → Stops s →
      (∀ c ∈ cs, IsNumeral 16 c.line) ∧ ∃ n, 1 ≤ n ∧ s = lastLine n := by
  constructor
  · rintro h cs s rest rfl hstop
    obtain ⟨n, hn⟩ := doPOST_stop cs hstop rest
    exact (wellFormed_iff hstop).1 (h n _ rest (hn n (Nat.le_refl n)))
  · intro h fuel body rest hpost
    obtain ⟨cs, s, rfl, hstop, rfl⟩ := doPOST_returns_iff.1 (doPOST_returns hpost)
    exact (wellFormed_iff hstop).2 (h cs s rest rfl hstop)

/-- `5\r\nhello\r\n`. -/
def helloChunk : ReadChunk where
  line := [53]
  data := [104, 101, 108, 108, 111]
  data_ne := by decide
  isLine := by decide
  line_val := by decide

/-- `5\r\nhello\r\nzz\r\n`. -/
def sampleMalformed : List UInt8 :=
  [53, 13, 10, 104, 101, 108, 108, 111, 13, 10, 122, 122, 13, 10]

/-- The last length line is no number, and the five bytes before it are handled as a whole
report. -/
theorem malformed_line_accepted :
    (∃ fuel, doPOST fuel chunkedHeaders sampleMalformed =
      some (.ok ⟨[[104, 101, 108, 108, 111]], []⟩)) ∧
    ¬WellFormed sampleMalformed [104, 101, 108, 108, 111] [] := by
  have hstop : Stops ([122, 122] ++ delimiter) := .line (by decide) (by decide)
  obtain ⟨n, hn⟩ := doPOST_stop [helloChunk] hstop []
  refine ⟨⟨n, hn n (Nat.le_refl n)⟩, fun h => ?_⟩
  obtain ⟨-, k, hk, hlast⟩ := (@wellFormed_iff [helloChunk] _ [] hstop).1 h
  obtain ⟨k, rfl⟩ : ∃ j, k = j + 1 := ⟨k - 1, by omega⟩
  simp [lastLine, List.replicate_succ] at hlast

/-! ## Reading that ends -/

/-- `do_POST` calls `POST`, once, or raises. -/
def ReadingEnds (headers : Headers) (rfile : List UInt8) : Prop :=
  (∃ body rest, Returns (fun fuel => doPOST fuel headers rfile) (.ok ⟨[body], rest⟩)) ∨
    ∃ e, Returns (fun fuel => doPOST fuel headers rfile) (.error e)

theorem readingEnds_chunked_iff (rfile : List UInt8) :
    ReadingEnds chunkedHeaders rfile ↔
      ¬∃ cs tail, rfile = ReadChunk.frames cs ++ tail ∧ EndsInLine tail := by
  constructor
  · rintro h ⟨cs, tail, rfl, hend⟩
    rcases h with ⟨body, rest, n, hn⟩ | ⟨e, n, hn⟩
    · simpa [doPOST_stuck cs hend] using hn n (Nat.le_refl n)
    · simpa [doPOST_stuck cs hend] using hn n (Nat.le_refl n)
  · intro h
    cases bodyRead rfile with
    | stuck cs tail hrfile hend => exact absurd ⟨cs, tail, hrfile, hend⟩ h
    | stop cs s rest hrfile hstop => exact Or.inl ⟨_, rest, hrfile ▸ doPOST_stop cs hstop rest⟩
    | error cs tail e hrfile herr => exact Or.inr ⟨e, hrfile ▸ doPOST_error cs herr⟩

/-- Reading a request body ends, whatever the headers and the connection, unless the body is
read in chunks and the connection ends inside a length line. -/
theorem reading_ends_iff (headers : Headers) (rfile : List UInt8) :
    ReadingEnds headers rfile ↔
      ¬(headers.contentLength = none ∧ headers.transferEncoding = some chunkedCoding ∧
        ∃ cs tail, rfile = ReadChunk.frames cs ++ tail ∧ EndsInLine tail) := by
  obtain ⟨contentLength, transferEncoding⟩ := headers
  have hsteady : ∀ r, (∀ fuel, readBody fuel ⟨contentLength, transferEncoding⟩ rfile = some r) →
      ReadingEnds ⟨contentLength, transferEncoding⟩ rfile := by
    rintro (e | ⟨body, rest⟩) hr
    · exact Or.inr ⟨e, 0, fun fuel _ => by simp [doPOST, hr fuel]⟩
    · exact Or.inl ⟨body, rest, 0, fun fuel _ => by simp [doPOST, hr fuel]⟩
  cases contentLength with
  | some text =>
    refine iff_of_true ?_ (by simp)
    cases hint : int 10 text with
    | none => exact hsteady (.error .valueError) fun fuel => by simp only [readBody, hint]
    | some n => exact hsteady (read n rfile) fun fuel => by simp only [readBody, hint]
  | none =>
    by_cases hte : transferEncoding = some chunkedCoding
    · subst hte
      rw [show (⟨none, some chunkedCoding⟩ : Headers) = chunkedHeaders from rfl,
        readingEnds_chunked_iff]
      simp [chunkedHeaders]
    · exact iff_of_true
        (hsteady (.error (.exception "Missing Content-Length or Transfer-Encoding headers"))
          fun fuel => by simp only [readBody, if_neg hte])
        (by simp [hte])

/-- A chunked request whose connection ends with its headers holds its thread for good. -/
theorem reading_stuck : ¬ReadingEnds chunkedHeaders [] := by
  intro h
  refine (readingEnds_chunked_iff []).1 h ⟨[], [], rfl, by simp, ?_⟩
  simp [delimiter]

end TracerBench
