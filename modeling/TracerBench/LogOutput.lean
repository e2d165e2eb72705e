import TracerBench.Python
import TracerBench.Run

/-!
# The output of a child process

`start_logging_subprocess` of `benchmark/utils.py` gives each of a child's two output
streams a pipe and a thread, `_log_output`, that reads the pipe line by line and logs each
line. The pipe holds at most `capacity` bytes : a child that finds it full waits, and
`run_test` waits for the child.

The thread is followed one `read(1)` of `readline` at a time, beside a child that writes
its bytes in pieces of any size. `log_output_iff` says which streams are logged without
loss, and `child_blocked` what has happened when a child waits for ever.
-/

namespace TracerBench

/-! ## Lines -/

section Lines

variable {α : Type*} {sep : α} {ls : List (List α)} {l r : List α}

/-- Each line followed by the separator. -/
def unlines (sep : α) (ls : List (List α)) : List α :=
  ls.flatMap (· ++ [sep])

@[simp] theorem unlines_nil : unlines sep [] = [] :=
  rfl

theorem unlines_cons : unlines sep (l :: ls) = l ++ sep :: unlines sep ls := by
  simp [unlines]

theorem unlines_concat : unlines sep (ls ++ [l]) = unlines sep ls ++ l ++ [sep] := by
  simp [unlines]

theorem getLast?_unlines (hls : ls ≠ []) : (unlines sep ls).getLast? = some sep := by
  obtain ⟨init, last, rfl⟩ := (List.eq_nil_or_concat' ls).resolve_left hls
  rw [unlines_concat, List.getLast?_concat]

variable [DecidableEq α]

/-- A text split at the separators, the last of which need not be followed by a line. -/
def lines (sep : α) (text : List α) : List (List α) :=
  if (text.splitOn sep).getLast? = some [] then (text.splitOn sep).dropLast
  else text.splitOn sep

theorem splitOn_unlines (hls : ∀ l ∈ ls, sep ∉ l) (hr : sep ∉ r) :
    (unlines sep ls ++ r).splitOn sep = ls ++ [r] := by
  have hjoin : ∀ ls : List (List α), unlines sep ls ++ r = [sep].intercalate (ls ++ [r]) := by
    intro ls
    induction ls with
    | nil => simp
    | cons l ls ih =>
      rw [unlines_cons, List.cons_append, List.intercalate_cons_of_ne_nil (by simp), ← ih]
      simp
  rw [hjoin, List.splitOn_intercalate sep _ (by simp)]
  simpa [or_imp, forall_and] using ⟨hls, hr⟩

/-- Reading back whole lines and what stands after the last separator. -/
theorem lines_unlines (hls : ∀ l ∈ ls, sep ∉ l) (hr : sep ∉ r) :
    lines sep (unlines sep ls ++ r) = ls ++ if r = [] then [] else [r] := by
  rw [lines, splitOn_unlines hls hr]
  by_cases h : r = []
  · simp [h]
  · simp [h]

end Lines

/-! ## The pipe and its reader -/

/-- The newline. -/
def lf : UInt8 := 10

/-- `decode('ascii')`, where a `UnicodeDecodeError` is a `ValueError`. -/
def decodeAscii (line : List UInt8) : Except PyError (List Char) :=
  if line.all (· < 128) then .ok (line.map Char.ofUInt8) else .error .valueError

/-- Where the thread of `_log_output` is. -/
inductive LogReader where
  /-- In `pipe.readline`, with the bytes of the line read so far. -/
  | reading (line : List UInt8)
  /-- `readline` has returned `b''`, and the loop is over. -/
  | ended
  | raised (e : PyError)
  deriving DecidableEq

/-- A child, one of its output pipes, and the thread that logs it. -/
structure LogPipe where
  /-- What the child has still to write. -/
  toWrite : List UInt8
  /-- The child has closed its end. -/
  closed : Bool
  pipe : List UInt8
  reader : LogReader
  logged : List (List Char)
  deriving DecidableEq

inductive LogEvent where
  /-- The child writes the next `n` bytes. -/
  | write (n : ℕ)
  | close
  /-- `readline` reads a byte, or finds the end of the pipe. -/
  | read
  deriving DecidableEq

namespace LogPipe

/-- A child that has just been started. -/
def start (stream : List UInt8) : LogPipe :=
  ⟨stream, false, [], .reading [], []⟩

/-- `readline` returns a line : it is decoded and logged without its last character. -/
def logLine (line : List UInt8) (s : LogPipe) : LogPipe :=
  match decodeAscii line with
  | .ok text => { s with logged := s.logged ++ [text.dropLast], reader := .reading [] }
  | .error e => { s with reader := .raised e }

/-- One step of the child or the thread. Reading from an empty pipe waits until the child
has written or closed it. -/
def step (capacity : ℕ) (s : LogPipe) : LogEvent → Option LogPipe
  | .write n =>
    if 0 < n ∧ n ≤ s.toWrite.length ∧ s.pipe.length + n ≤ capacity then
      some { s with toWrite := s.toWrite.drop n, pipe := s.pipe ++ s.toWrite.take n }
    else none
  | .close => if s.toWrite = [] ∧ s.closed = false then some { s with closed := true } else none
  | .read =>
    match s.reader, s.pipe with
    | .reading line, b :: rest =>
      if b = lf then some (logLine (line ++ [b]) { s with pipe := rest })
      else some { s with pipe := rest, reader := .reading (line ++ [b]) }
    | .reading line, [] =>
      if s.closed then
        if line = [] then some { s with reader := .ended } else some (logLine line s)
      else none
    | _, _ => none

/-- Neither the child nor the thread can go on. -/
def Stuck (capacity : ℕ) (s : LogPipe) : Prop :=
  ∀ e, s.step capacity e = none

/-- The lines of a stream are logged in order, each with all its characters. -/
def Lossless (stream : List UInt8) (s : LogPipe) : Prop :=
  s.logged.map (·.map Char.toNat) = (lines lf stream).map (·.map UInt8.toNat)

end LogPipe

/-- Bytes below 128 only. -/
def Ascii (l : List UInt8) : Prop :=
  ∀ b ∈ l, b < 128

/-- A newline at the end, if anything is there. -/
def Terminated (stream : List UInt8) : Prop :=
  ∀ b ∈ stream.getLast?, b = lf

/-! ## What the thread has logged -/

/-- The characters of an ASCII line. -/
def text (line : List UInt8) : List Char :=
  line.map Char.ofUInt8

theorem decodeAscii_of_ascii {line : List UInt8} (h : Ascii line) :
    decodeAscii line = .ok (text line) :=
  if_pos (List.all_eq_true.2 fun b hb => decide_eq_true (h b hb))

theorem decodeAscii_of_not_ascii {line : List UInt8} (h : ¬Ascii line) :
    decodeAscii line = .error .valueError :=
  if_neg fun hall => h fun b hb => of_decide_eq_true (List.all_eq_true.1 hall b hb)

@[simp] theorem length_text (line : List UInt8) : (text line).length = line.length :=
  List.length_map _

theorem toNat_text (line : List UInt8) : (text line).map Char.toNat = line.map UInt8.toNat := by
  rw [text, List.map_map]
  exact List.map_congr_left fun b _ => UInt8.toNat_toUInt32 b

/-- Of the bytes `read` the thread has logged each line, and `line` is not complete. -/
def Intact (read line : List UInt8) (logged : List (List Char)) : Prop :=
  ∃ done, read = unlines lf done ++ line ∧ lf ∉ line ∧ (∀ l ∈ done, lf ∉ l ∧ Ascii l) ∧
    logged = done.map text

/-- The last line of the bytes `read` had no newline, and was logged short of a character. -/
def Cut (read : List UInt8) (logged : List (List Char)) : Prop :=
  ∃ line before, Intact read line before ∧ line ≠ [] ∧ Ascii line ∧
    logged = before ++ [(text line).dropLast]

section Logged

variable {read line : List UInt8} {logged : List (List Char)} {b : UInt8}

theorem intact_nil : Intact [] [] [] :=
  ⟨[], by simp⟩

theorem Intact.byte (h : Intact read line logged) (hb : b ≠ lf) :
    Intact (read ++ [b]) (line ++ [b]) logged := by
  obtain ⟨done, rfl, hline, hdone, rfl⟩ := h
  exact ⟨done, List.append_assoc _ _ _, by simp [hline, hb.symm], hdone, rfl⟩

theorem Intact.newline (h : Intact read line logged) (hascii : Ascii line) :
    Intact (read ++ [lf]) [] (logged ++ [text line]) := by
  obtain ⟨done, rfl, hline, hdone, rfl⟩ := h
  refine ⟨done ++ [line], by rw [unlines_concat, List.append_nil], by simp, ?_, by simp⟩
  simpa [or_imp, forall_and] using
    ⟨⟨fun l hl => (hdone l hl).1, hline⟩, fun l hl => (hdone l hl).2, hascii⟩

theorem Intact.ascii (h : Intact read [] logged) : Ascii read := by
  obtain ⟨done, rfl, -, hdone, -⟩ := h
  intro b hb
  rw [List.append_nil, unlines, List.mem_flatMap] at hb
  obtain ⟨l, hl, hb⟩ := hb
  rcases List.mem_append.1 hb with hb | hb
  · exact (hdone l hl).2 b hb
  · obtain rfl := List.mem_singleton.1 hb
    decide

theorem Intact.not_ascii (h : Intact read line logged) (hline : ¬Ascii line) (rest : List UInt8) :
    ¬Ascii (read ++ rest) := by
  obtain ⟨done, rfl, -⟩ := h
  exact fun hall => hline fun b hb => hall b (by simp [hb])

theorem Intact.lines_eq (h : Intact read line logged) :
    logged.map (·.map Char.toNat) ++ (if line = [] then [] else [line.map UInt8.toNat]) =
      (lines lf read).map (·.map UInt8.toNat) := by
  obtain ⟨done, rfl, hline, hdone, rfl⟩ := h
  rw [lines_unlines (fun l hl => (hdone l hl).1) hline, List.map_append, List.map_map]
  congr 1
  · exact List.map_congr_left fun l _ => toNat_text l
  · split_ifs <;> rfl

theorem Intact.terminated (h : Intact read [] logged) : Terminated read := by
  obtain ⟨done, rfl, -⟩ := h
  intro b hb
  by_cases hdone : done = []
  · simp [hdone] at hb
  · rw [List.append_nil, getLast?_unlines hdone] at hb
    exact (Option.some.inj hb).symm

theorem Cut.not_terminated (h : Cut read logged) : ¬Terminated read := by
  obtain ⟨line, -, ⟨done, rfl, hlf, -⟩, hne, -⟩ := h
  intro hterm
  have hlast := hterm (line.getLast hne) (by simp [List.getLast?_eq_some_getLast hne])
  exact hlf (hlast ▸ List.getLast_mem hne)

/-- The last message is too short. -/
theorem Cut.lossy (h : Cut read logged) :
    logged.map (·.map Char.toNat) ≠ (lines lf read).map (·.map UInt8.toNat) := by
  obtain ⟨line, before, hintact, hne, -, rfl⟩ := h
  rw [← hintact.lines_eq, if_neg hne, List.map_append]
  intro heq
  have hlast := congrArg List.length (List.singleton_injective (List.append_cancel_left heq))
  have hpos := List.length_pos_iff.2 hne
  simp only [List.length_map, List.length_dropLast, length_text] at hlast
  omega

end Logged

/-! ## Runs -/

namespace LogPipe

variable {capacity : ℕ} {stream line read : List UInt8} {s s' : LogPipe}

theorem logLine_of_ascii (h : Ascii line) :
    logLine line s =
      { s with logged := s.logged ++ [(text line).dropLast], reader := .reading [] } := by
  rw [logLine, decodeAscii_of_ascii h]

theorem logLine_of_not_ascii (h : ¬Ascii line) :
    logLine line s = { s with reader := .raised .valueError } := by
  rw [logLine, decodeAscii_of_not_ascii h]

theorem dropLast_text (line : List UInt8) : (text (line ++ [lf])).dropLast = text line := by
  rw [text, List.map_append, List.map_singleton, List.dropLast_concat, text]

theorem ascii_newline : Ascii (line ++ [lf]) ↔ Ascii line := by
  simp only [Ascii, List.mem_append, List.mem_singleton, or_imp, forall_and, forall_eq]
  exact and_iff_left (by decide)

/-- What the thread has made of the bytes it has read. -/
def Reads (s : LogPipe) (read : List UInt8) : Prop :=
  match s.reader with
  | .reading line =>
    Intact read line s.logged ∨
      line = [] ∧ s.closed = true ∧ s.pipe = [] ∧ Cut read s.logged
  | .ended => s.closed = true ∧ s.pipe = [] ∧ (Intact read [] s.logged ∨ Cut read s.logged)
  | .raised _ => ¬Ascii read

/-- No byte is lost on the way to the thread. -/
structure Drains (stream : List UInt8) (s : LogPipe) : Prop where
  read : ∃ read, stream = read ++ s.pipe ++ s.toWrite ∧ s.Reads read
  closed : s.closed = true → s.toWrite = []

/-- What a read does : a byte is taken off the pipe, or its end is found. -/
theorem step_read (h : s.step capacity .read = some s') :
    ∃ line, s.reader = .reading line ∧
      ((∃ b rest, s.pipe = b :: rest ∧
        s' = if b = lf then logLine (line ++ [b]) { s with pipe := rest }
          else { s with pipe := rest, reader := .reading (line ++ [b]) }) ∨
      s.pipe = [] ∧ s.closed = true ∧
        s' = if line = [] then { s with reader := .ended } else logLine line s) := by
  rcases hr : s.reader with line | _ | _ <;> rcases hp : s.pipe with _ | ⟨b, rest⟩ <;>
    simp only [step, hr, hp, reduceCtorEq] at h
  · split_ifs at h with hc hl <;> obtain rfl := Option.some.inj h
    · exact ⟨line, rfl, Or.inr ⟨rfl, hc, (if_pos hl).symm⟩⟩
    · exact ⟨line, rfl, Or.inr ⟨rfl, hc, (if_neg hl).symm⟩⟩
  · split_ifs at h with hb <;> obtain rfl := Option.some.inj h
    · exact ⟨line, rfl, Or.inl ⟨b, rest, rfl, (if_pos hb).symm⟩⟩
    · exact ⟨line, rfl, Or.inl ⟨b, rest, rfl, (if_neg hb).symm⟩⟩

theorem Reads.byte {b : UInt8} {rest : List UInt8} (h : s.Reads read)
    (hr : s.reader = .reading line) (hp : s.pipe = b :: rest) :
    (if b = lf then logLine (line ++ [b]) { s with pipe := rest }
      else { s with pipe := rest, reader := .reading (line ++ [b]) }).Reads (read ++ [b]) := by
  rw [Reads, hr] at h
  have hintact := h.resolve_right fun hcut => by simp [hp] at hcut
  split_ifs with hb
  · subst hb
    by_cases hascii : Ascii line
    · rw [logLine_of_ascii (ascii_newline.2 hascii), dropLast_text]
      exact Or.inl (hintact.newline hascii)
    · rw [logLine_of_not_ascii (mt ascii_newline.1 hascii)]
      exact hintact.not_ascii hascii [lf]
  · exact Or.inl (hintact.byte hb)

theorem Reads.atEnd (h : s.Reads read) (hr : s.reader = .reading line) (hp : s.pipe = [])
    (hc : s.closed = true) :
    (if line = [] then { s with reader := .ended } else logLine line s).Reads read := by
  rw [Reads, hr] at h
  split_ifs with hl
  · subst hl
    exact ⟨hc, hp, h.imp_right fun hcut => hcut.2.2.2⟩
  · have hintact := h.resolve_right fun hcut => hl hcut.1
    by_cases hascii : Ascii line
    · rw [logLine_of_ascii hascii]
      exact Or.inr ⟨rfl, hc, hp, line, _, hintact, hl, hascii, rfl⟩
    · rw [logLine_of_not_ascii hascii]
      have hnot := hintact.not_ascii hascii []
      rwa [List.append_nil] at hnot

@[simp] theorem logLine_toWrite (line : List UInt8) (s : LogPipe) :
    (logLine line s).toWrite = s.toWrite := by
  rw [logLine]
  split <;> rfl

@[simp] theorem logLine_closed (line : List UInt8) (s : LogPipe) :
    (logLine line s).closed = s.closed := by
  rw [logLine]
  split <;> rfl

@[simp] theorem logLine_pipe (line : List UInt8) (s : LogPipe) :
    (logLine line s).pipe = s.pipe := by
  rw [logLine]
  split <;> rfl

theorem Drains.start : (start stream).Drains stream where
  read := ⟨[], by simp [LogPipe.start], Or.inl intact_nil⟩
  closed := by simp [LogPipe.start]

theorem Drains.step (h : s.Drains stream) {e : LogEvent} (he : s.step capacity e = some s') :
    s'.Drains stream := by
  obtain ⟨⟨read, rfl, hread⟩, hclosed⟩ := h
  rcases e with n | _ | _
  · rw [LogPipe.step, Option.ite_none_right_eq_some] at he
    obtain ⟨⟨hn, hle, -⟩, he⟩ := he
    obtain rfl := Option.some.inj he
    -- a closed pipe is not written to
    have hopen : s.closed ≠ true := fun hc => by simp [hclosed hc] at hle; omega
    refine ⟨⟨read, by simp, ?_⟩, fun hc => absurd hc hopen⟩
    rw [Reads] at hread ⊢
    rcases hr : s.reader with line | _ | _ <;> simp only [hr] at hread ⊢
    · exact Or.inl (hread.resolve_right fun hcut => hopen hcut.2.1)
    · exact absurd hread.1 hopen
    · exact hread
  · rw [LogPipe.step, Option.ite_none_right_eq_some] at he
    obtain ⟨⟨hw, hopen⟩, he⟩ := he
    obtain rfl := Option.some.inj he
    refine ⟨⟨read, rfl, ?_⟩, fun _ => hw⟩
    rw [Reads] at hread ⊢
    rcases hr : s.reader with line | _ | _ <;> simp only [hr] at hread ⊢
    · exact Or.inl (hread.resolve_right fun hcut => by simp [hopen] at hcut)
    · simp [hopen] at hread
    · exact hread
  · obtain ⟨line, hr, ⟨b, rest, hp, rfl⟩ | ⟨hp, hc, rfl⟩⟩ := step_read he
    · have hnext := hread.byte hr hp
      refine ⟨⟨read ++ [b], ?_, hnext⟩, ?_⟩
      · split_ifs <;> simp [hp]
      · split_ifs <;> simpa using hclosed
    · have hnext := hread.atEnd hr hp hc
      refine ⟨⟨read, ?_, hnext⟩, ?_⟩
      · split_ifs <;> simp
      · split_ifs <;> simpa using hclosed

theorem drains_of_run {es : List LogEvent}
    (h : run (LogPipe.step capacity) (LogPipe.start stream) es = some s) : s.Drains stream :=
  run_invariant Drains.start (fun _ _ _ hm he => hm.step he) h

/-- What is left to do, so that each step does some of it. -/
def left (s : LogPipe) : ℕ :=
  4 * s.toWrite.length + 2 * s.pipe.length + (if s.closed then 0 else 1) +
    match s.reader with
    | .reading [] => 1
    | .reading (_ :: _) => 2
    | _ => 0

theorem left_logLine : (logLine line s).left ≤
    4 * s.toWrite.length + 2 * s.pipe.length + (if s.closed then 0 else 1) + 1 := by
  by_cases hascii : Ascii line
  · simp [logLine_of_ascii hascii, left]
  · simp [logLine_of_not_ascii hascii, left]

theorem step_left {e : LogEvent} (h : s.step capacity e = some s') : s'.left < s.left := by
  rcases e with n | _ | _
  · rw [LogPipe.step, Option.ite_none_right_eq_some] at h
    obtain ⟨⟨hn, hle, -⟩, h⟩ := h
    obtain rfl := Option.some.inj h
    simp only [left, List.length_drop, List.length_append, List.length_take, min_eq_left hle]
    omega
  · rw [LogPipe.step, Option.ite_none_right_eq_some] at h
    obtain ⟨⟨-, hopen⟩, h⟩ := h
    obtain rfl := Option.some.inj h
    simp [left, hopen]
  · obtain ⟨line, hr, ⟨b, rest, hp, rfl⟩ | ⟨hp, hc, rfl⟩⟩ := step_read h
    · have hs : 4 * s.toWrite.length + 2 * (rest.length + 1) + (if s.closed then 0 else 1) + 1 ≤
          s.left := by
        rcases line with _ | _ <;> simp [left, hr, hp]
      split_ifs with hb
      · have hlog : (logLine (line ++ [b]) { s with pipe := rest }).left ≤ _ := left_logLine
        simp only at hlog
        omega
      · rw [left]
        rcases line with _ | _ <;> simp <;> omega
    · split_ifs with hl
      · simp [left, hr, hl]
      · obtain ⟨b, rest, rfl⟩ := List.exists_cons_of_ne_nil hl
        have hlog : (logLine (b :: rest) s).left ≤ _ := left_logLine
        have hs : s.left = 4 * s.toWrite.length + 2 * s.pipe.length +
            (if s.closed then 0 else 1) + 2 := by simp [left, hr]
        omega

/-- A child that has not closed its pipe can go on, unless the pipe is full. -/
theorem Stuck.full (h : s.Stuck capacity) (hopen : s.closed = false) :
    s.toWrite ≠ [] ∧ capacity ≤ s.pipe.length := by
  have hw : s.toWrite ≠ [] := fun hw => by simpa [step, hw, hopen] using h .close
  refine ⟨hw, not_lt.1 fun hlt => ?_⟩
  have hpos := List.length_pos_iff.2 hw
  have hwrite := h (.write 1)
  rw [step, if_pos ⟨Nat.one_pos, hpos, hlt⟩] at hwrite
  simp at hwrite

/-- The thread stops only at the end of the pipe, or where it raises. -/
theorem Stuck.reader (hcap : 0 < capacity) (h : s.Stuck capacity) :
    s.reader = .ended ∨ ∃ e, s.reader = .raised e := by
  rcases hr : s.reader with line | _ | e
  · have hread := h .read
    exfalso
    rcases hp : s.pipe with _ | ⟨b, rest⟩
    · cases hc : s.closed with
      | true =>
        simp only [step, hr, hp, hc] at hread
        split_ifs at hread
      | false =>
        have hfull := (h.full hc).2
        rw [hp, List.length_nil] at hfull
        omega
    · simp only [step, hr, hp] at hread
      split_ifs at hread
  · exact Or.inl rfl
  · exact Or.inr ⟨e, rfl⟩

/-- At the end of the pipe the whole stream has been read. -/
theorem Drains.ended (h : s.Drains stream) (hr : s.reader = .ended) :
    s.closed = true ∧ (Intact stream [] s.logged ∨ Cut stream s.logged) := by
  obtain ⟨⟨read, rfl, hread⟩, hclosed⟩ := h
  rw [Reads, hr] at hread
  obtain ⟨hc, hp, hlog⟩ := hread
  rw [hp, hclosed hc, List.append_nil, List.append_nil]
  exact ⟨hc, hlog⟩

theorem Drains.raised (h : s.Drains stream) {e : PyError} (hr : s.reader = .raised e) :
    ¬Ascii stream := by
  obtain ⟨⟨read, rfl, hread⟩, -⟩ := h
  rw [Reads, hr] at hread
  exact fun hall => hread fun b hb => hall b (by simp [hb])

end LogPipe

open LogPipe

section Stream

variable {capacity : ℕ} {stream : List UInt8} {es : List LogEvent} {s : LogPipe}

/-- A child waits for ever only when its pipe is full and nobody reads it, because a byte it
wrote is not ASCII. -/
theorem child_blocked (hcap : 0 < capacity)
    (h : run (LogPipe.step capacity) (LogPipe.start stream) es = some s)
    (hstuck : s.Stuck capacity) (hopen : s.closed = false) :
    capacity ≤ s.pipe.length ∧ (∃ e, s.reader = .raised e) ∧ ¬Ascii stream := by
  have hdrains := drains_of_run h
  rcases hstuck.reader hcap with hr | ⟨e, hr⟩
  · rw [(hdrains.ended hr).1] at hopen
    exact absurd hopen (by simp)
  · exact ⟨(hstuck.full hopen).2, ⟨e, hr⟩, hdrains.raised hr⟩

/-- A child's output is read to its end and logged without loss exactly when it is ASCII and
its last line ends with a newline. No schedule goes on for ever, and each run can come to its
end. -/
theorem log_output_iff (hcap : 0 < capacity) (stream : List UInt8) :
    (∀ es s, run (LogPipe.step capacity) (LogPipe.start stream) es = some s →
      es.length + s.left ≤ (LogPipe.start stream).left ∧
      ∃ es' t, run (LogPipe.step capacity) s es' = some t ∧ t.Stuck capacity) ∧
    ∀ es s, run (LogPipe.step capacity) (LogPipe.start stream) es = some s → s.Stuck capacity →
      ((s.reader = .ended ∧ s.closed = true ∧ s.Lossless stream) ↔
        Ascii stream ∧ Terminated stream) := by
  refine ⟨fun es s h => ⟨run_length_le left (fun _ _ _ => step_left) h,
    exists_run_stuck left (fun _ _ _ => step_left) s⟩, fun es s h hstuck => ?_⟩
  have hdrains := drains_of_run h
  constructor
  · rintro ⟨hr, -, hlossless⟩
    rcases (hdrains.ended hr).2 with hintact | hcut
    · exact ⟨hintact.ascii, hintact.terminated⟩
    · exact absurd hlossless hcut.lossy
  · rintro ⟨hascii, hterm⟩
    rcases hstuck.reader hcap with hr | ⟨e, hr⟩
    · obtain ⟨hc, hintact | hcut⟩ := hdrains.ended hr
      · refine ⟨hr, hc, ?_⟩
        have heq := hintact.lines_eq
        rwa [if_pos rfl, List.append_nil] at heq
      · exact absurd hterm hcut.not_terminated
    · exact absurd hascii (hdrains.raised hr)

theorem log_output_iff_sample :
    (⟨[], true, [], .ended, [['o', 'k']]⟩ : LogPipe).Lossless [111, 107, 10] := by
  have hrun : run (LogPipe.step 65536) (LogPipe.start [111, 107, 10])
      [.write 2, .read, .write 1, .close, .read, .read, .read] =
        some ⟨[], true, [], .ended, [['o', 'k']]⟩ := by decide
  refine (((log_output_iff (by decide) [111, 107, 10]).2 _ _ hrun ?_).2 ⟨?_, ?_⟩).2.2
  · rintro (n | _ | _)
    · rw [LogPipe.step, if_neg]
      simp only [List.length_nil]
      omega
    · rfl
    · rfl
  · simp [Ascii]
  · simp [Terminated, lf]

/-- `caf` and an e-acute in UTF-8, with a newline, and then `ok` without one. -/
def sampleOutput : List UInt8 := [99, 97, 102, 195, 169, 10, 111, 107]

/-- A last line without a newline loses its last character. A byte that is not ASCII ends
the thread, and the child is left with a full pipe. -/
theorem output_lost :
    (run (LogPipe.step 65536) (LogPipe.start [111, 107])
        [.write 2, .close, .read, .read, .read, .read] =
          some ⟨[], true, [], .ended, [['o']]⟩ ∧
      ¬(⟨[], true, [], .ended, [['o']]⟩ : LogPipe).Lossless [111, 107]) ∧
    run (LogPipe.step 4) (LogPipe.start (sampleOutput ++ sampleOutput))
        [.write 4, .read, .read, .read, .read, .write 2, .read, .read, .write 4] =
          some ⟨[102, 195, 169, 10, 111, 107], false, [111, 107, 99, 97], .raised .valueError, []⟩ ∧
      (⟨[102, 195, 169, 10, 111, 107], false, [111, 107, 99, 97], .raised .valueError, []⟩ :
        LogPipe).Stuck 4 := by
  refine ⟨⟨by decide, by unfold Lossless; decide⟩, by decide, ?_⟩
  rintro (n | _ | _)
  · rw [LogPipe.step, if_neg]
    simp only [List.length_cons, List.length_nil]
    omega
  · rfl
  · rfl

end Stream

end TracerBench
