import TracerBench.LogOutput

/-!
# A child and its two pipes

`start_logging_subprocess` gives a child one pipe for its standard output and one for its
errors, each with a `_log_output` thread of its own. The child writes to both from one
program, so where it waits for one pipe it does not write to the other, and `run_test` waits
until it exits.

A thread stops for good at the end of the first line that is not ASCII (`readTo`). From then
on its pipe only fills. `child_exits_iff` : the child exits if and only if, of each stream,
what that thread does not read fits into the pipe; neither the order of the writes nor the
schedule of the threads matters. What the threads log goes to the files of `setup_logger` by
its level.
-/

namespace TracerBench

/-- An output stream of a child. -/
inductive Output where
  | stdout
  | stderr
  deriving DecidableEq

/-- The levels the threads log at, and those of the handlers, lowest first. -/
inductive Level where
  | debug | info | warning | error
  deriving DecidableEq

def Level.no : Level → ℕ
  | .debug => 10
  | .info => 20
  | .warning => 30
  | .error => 40

/-- The level of the logger method that `start_logging_subprocess` gives a stream. -/
def Output.level : Output → Level
  | .stdout => .debug
  | .stderr => .error

/-- The handlers of `setup_logger`. -/
inductive Handler where
  | file | verboseFile | print
  deriving DecidableEq

def Handler.level : Handler → Level
  | .file => .info
  | .verboseFile => .debug
  | .print => .warning

/-- A child, with what it has still to write, its two pipes with their threads, and all the
messages so far. -/
structure Child where
  script : List (Output × UInt8)
  pipes : Output → LogPipe
  exited : Bool
  messages : List (Output × List Char)

inductive ChildEvent where
  /-- The child writes its next byte. -/
  | write (o : Output)
  | exit
  /-- The thread of a stream reads a byte, or the end. -/
  | read (o : Output)
  deriving DecidableEq

/-- The bytes of a stream. -/
def bytesOf (o : Output) (script : List (Output × UInt8)) : List UInt8 :=
  script.filterMap fun x => if x.1 = o then some x.2 else none

namespace Child

def start (script : List (Output × UInt8)) : Child :=
  ⟨script, fun o => .start (bytesOf o script), false, []⟩

/-- A child that finds a pipe full waits, and its exit closes both. -/
def step (capacity : ℕ) (s : Child) : ChildEvent → Option Child
  | .write o =>
    match s.script with
    | [] => none
    | (o', _) :: script =>
      if o = o' then
        ((s.pipes o).step capacity (.write 1)).map fun p =>
          { s with script := script, pipes := Function.update s.pipes o p }
      else none
  | .exit =>
    if s.script = [] ∧ s.exited = false then
      ((s.pipes .stdout).step capacity .close).bind fun p =>
        ((s.pipes .stderr).step capacity .close).map fun q =>
          { s with
            pipes := fun
              | .stdout => p
              | .stderr => q
            exited := true }
    else none
  | .read o =>
    ((s.pipes o).step capacity .read).map fun p =>
      { s with
        pipes := Function.update s.pipes o p
        messages := s.messages ++ (p.logged.drop (s.pipes o).logged.length).map (o, ·) }

/-- Neither the child nor a thread can go on. -/
def Stuck (capacity : ℕ) (s : Child) : Prop :=
  ∀ e, s.step capacity e = none

/-- What a handler has written. -/
def written (s : Child) (h : Handler) : List (Output × List Char) :=
  s.messages.filter fun m => decide (h.level.no ≤ m.1.level.no)

end Child

/-- How many bytes of a stream its thread reads : all, or those up to the end of the first
line that is not ASCII. The flag says that the line so far is. -/
def readTo : Bool → List UInt8 → ℕ
  | _, [] => 0
  | ascii, b :: stream =>
    if b = lf then if ascii then readTo true stream + 1 else 1
    else readTo (ascii && decide (b < 128)) stream + 1

/-! ## One pipe of the two -/

namespace LogPipe

variable {capacity : ℕ} {stream : List UInt8} {s s' : LogPipe}

theorem step_write (h : s.step capacity (.write 1) = some s') :
    s.toWrite ≠ [] ∧ s.pipe.length + 1 ≤ capacity ∧
      s' = { s with toWrite := s.toWrite.drop 1, pipe := s.pipe ++ s.toWrite.take 1 } := by
  rw [step, Option.ite_none_right_eq_some] at h
  obtain ⟨⟨-, hle, hroom⟩, h⟩ := h
  exact ⟨List.length_pos_iff.1 hle, hroom, (Option.some.inj h).symm⟩

theorem step_close (h : s.step capacity .close = some s') :
    s.toWrite = [] ∧ s.closed = false ∧ s' = { s with closed := true } := by
  rw [step, Option.ite_none_right_eq_some] at h
  exact ⟨h.1.1, h.1.2, (Option.some.inj h.2).symm⟩

/-- A read keeps what was logged, and what is left to be written. -/
theorem step_read_keeps (h : s.step capacity .read = some s') :
    s.logged <+: s'.logged ∧ s'.toWrite = s.toWrite ∧ s'.closed = s.closed := by
  obtain ⟨line, -, ⟨b, rest, -, rfl⟩ | ⟨-, -, rfl⟩⟩ := step_read h
  · split_ifs
    · refine ⟨?_, by simp, by simp⟩
      unfold logLine
      split
      · exact List.prefix_append _ _
      · exact List.prefix_rfl
    · exact ⟨List.prefix_rfl, rfl, rfl⟩
  · split_ifs
    · exact ⟨List.prefix_rfl, rfl, rfl⟩
    · refine ⟨?_, by simp, by simp⟩
      unfold logLine
      split
      · exact List.prefix_append _ _
      · exact List.prefix_rfl

/-- A thread that is waiting has an empty pipe that is open. -/
theorem read_stuck (h : s.step capacity .read = none) :
    s.reader = .ended ∨ (∃ e, s.reader = .raised e) ∨ s.pipe = [] ∧ s.closed = false := by
  rcases hr : s.reader with line | _ | e
  · rcases hp : s.pipe with _ | ⟨b, rest⟩
    · cases hc : s.closed with
      | true =>
        simp only [step, hr, hp, hc] at h
        split_ifs at h
      | false => exact Or.inr (Or.inr ⟨rfl, rfl⟩)
    · simp only [step, hr, hp] at h
      split_ifs at h
  · exact Or.inl rfl
  · exact Or.inr (Or.inl ⟨e, rfl⟩)

/-! ## How far a thread reads -/

/-- What a thread is still to read of the bytes `rest` behind what it has read. -/
def toRead (s : LogPipe) (rest : List UInt8) : ℕ :=
  match s.reader with
  | .reading line => readTo (line.all (· < 128)) rest
  | _ => 0

/-- What the thread has read and is still to read is as much as `readTo` says. -/
def Reaches (stream : List UInt8) (s : LogPipe) : Prop :=
  ∃ read, stream = read ++ s.pipe ++ s.toWrite ∧
    readTo true stream = read.length + s.toRead (s.pipe ++ s.toWrite)

theorem Reaches.start : (start stream).Reaches stream :=
  ⟨[], by simp [LogPipe.start], by simp [LogPipe.start, toRead]⟩

theorem toRead_logLine (line rest : List UInt8) (s : LogPipe) :
    (logLine line s).toRead rest = if line.all (· < 128) then readTo true rest else 0 := by
  by_cases hascii : Ascii line
  · rw [logLine_of_ascii hascii, if_pos (List.all_eq_true.2 fun b hb => by simpa using hascii b hb)]
    rfl
  · rw [logLine_of_not_ascii hascii, if_neg]
    · rfl
    · exact fun hall => hascii fun b hb => by simpa using List.all_eq_true.1 hall b hb

theorem Reaches.step (h : s.Reaches stream) (hclosed : s.closed = true → s.toWrite = [])
    {e : LogEvent} (he : s.step capacity e = some s') : s'.Reaches stream := by
  obtain ⟨read, rfl, hread⟩ := h
  rcases e with n | _ | _
  · rw [LogPipe.step, Option.ite_none_right_eq_some] at he
    obtain rfl := Option.some.inj he.2
    refine ⟨read, by simp, ?_⟩
    rw [hread, toRead, toRead, List.append_assoc, List.take_append_drop]
  · obtain ⟨-, -, rfl⟩ := step_close he
    exact ⟨read, rfl, hread⟩
  · obtain ⟨line, hr, hcases⟩ := step_read he
    obtain ⟨toWrite, closed, pipe, reader, logged⟩ := s
    obtain rfl : reader = .reading line := hr
    simp only [toRead] at hread
    rcases hcases with ⟨b, rest, hp, rfl⟩ | ⟨hp, hc, rfl⟩
    · obtain rfl : pipe = b :: rest := hp
      simp only [List.cons_append, readTo] at hread
      refine ⟨read ++ [b], by split_ifs <;> simp, ?_⟩
      rw [hread, List.length_append, List.length_singleton]
      by_cases hb : b = lf
      · have hall : (line ++ [b]).all (· < 128) = line.all (· < 128) := by
          rw [hb, List.all_append]
          simp [lf]
        simp only [if_pos hb, toRead_logLine, hall, logLine_pipe, logLine_toWrite]
        split_ifs <;> omega
      · simp only [if_neg hb, toRead, List.all_append, List.all_cons, List.all_nil, Bool.and_true]
        omega
    · obtain rfl : pipe = [] := hp
      obtain rfl : toWrite = [] := hclosed hc
      refine ⟨read, by split_ifs <;> simp, ?_⟩
      rw [hread]
      split_ifs
      · simp [toRead, readTo]
      · rw [toRead_logLine, logLine_pipe, logLine_toWrite]
        split_ifs <;> simp [readTo]

end LogPipe

namespace Child

variable {capacity : ℕ} {script : List (Output × UInt8)} {s s' : Child} {o : Output}

/-- The child writes a byte to one pipe, or exits, or a thread reads. -/
inductive ChildStep (capacity : ℕ) (s : Child) : ChildEvent → Child → Prop
  | write (o : Output) (b : UInt8) (script : List (Output × UInt8)) (p : LogPipe)
    (hscript : s.script = (o, b) :: script) (hp : (s.pipes o).step capacity (.write 1) = some p) :
    ChildStep capacity s (.write o)
      { s with script := script, pipes := Function.update s.pipes o p }
  | exit (pipes : Output → LogPipe) (hscript : s.script = []) (hrun : s.exited = false)
    (hp : ∀ o, (s.pipes o).step capacity .close = some (pipes o)) :
    ChildStep capacity s .exit { s with pipes := pipes, exited := true }
  | read (o : Output) (p : LogPipe) (hp : (s.pipes o).step capacity .read = some p) :
    ChildStep capacity s (.read o)
      { s with
        pipes := Function.update s.pipes o p
        messages := s.messages ++ (p.logged.drop (s.pipes o).logged.length).map (o, ·) }

theorem childStep {e : ChildEvent} (h : s.step capacity e = some s') :
    ChildStep capacity s e s' := by
  rcases e with o | _ | o <;> simp only [step] at h
  · split at h
    · simp at h
    · next o' b script hscript =>
      split_ifs at h with ho
      obtain ⟨p, hp, rfl⟩ := Option.map_eq_some_iff.1 h
      exact .write o b script p (ho ▸ hscript) hp
  · split_ifs at h with hcond
    obtain ⟨p, hp, h⟩ := Option.bind_eq_some_iff.1 h
    obtain ⟨q, hq, rfl⟩ := Option.map_eq_some_iff.1 h
    refine .exit _ hcond.1 hcond.2 fun o => ?_
    cases o
    · exact hp
    · exact hq
  · obtain ⟨p, hp, rfl⟩ := Option.map_eq_some_iff.1 h
    exact .read o p hp

/-- The label a pipe takes its part in a step under. -/
def lab (o : Output) : ChildEvent → Option LogEvent
  | .write o' => if o' = o then some (.write 1) else none
  | .exit => some .close
  | .read o' => if o' = o then some .read else none

/-- Each pipe goes through a run of its own. -/
theorem run_pipe {es : List ChildEvent} (h : run (step capacity) (start script) es = some s)
    (o : Output) : run (LogPipe.step capacity) (.start (bytesOf o script)) (es.filterMap (lab o)) =
      some (s.pipes o) := by
  refine run_project (fun s => s.pipes o) (lab o) (fun s e s' he => ?_) h
  rcases childStep he with ⟨o', b, script, p, -, hp⟩ | ⟨pipes, -, -, hp⟩ | ⟨o', p, hp⟩
  · by_cases ho : o' = o
    · subst ho
      simpa [lab] using hp
    · simp [lab, ho, Function.update_of_ne (Ne.symm ho)]
  · exact hp o
  · by_cases ho : o' = o
    · subst ho
      simpa [lab] using hp
    · simp [lab, ho, Function.update_of_ne (Ne.symm ho)]

/-! ## The child and its pipes together -/

/-- What is left of the program is what the pipes are still to be given, the pipes are closed
when the child has exited, and the messages of a stream are what its thread has logged. -/
structure Sync (s : Child) : Prop where
  toWrite : ∀ o, (s.pipes o).toWrite = bytesOf o s.script
  closed : ∀ o, (s.pipes o).closed = s.exited
  script : s.exited = true → s.script = []
  messages : ∀ o, (s.messages.filterMap fun m => if m.1 = o then some m.2 else none) =
    (s.pipes o).logged

theorem bytesOf_cons (o o' : Output) (b : UInt8) (script : List (Output × UInt8)) :
    bytesOf o ((o', b) :: script) = if o' = o then b :: bytesOf o script else bytesOf o script := by
  by_cases h : o' = o <;> simp [bytesOf, h]

theorem sync_start : (start script).Sync where
  toWrite _ := rfl
  closed _ := rfl
  script := by simp [start]
  messages _ := rfl

theorem Sync.write {b : UInt8} {script : List (Output × UInt8)} {p : LogPipe} (h : s.Sync)
    (hscript : s.script = (o, b) :: script) (hp : (s.pipes o).step capacity (.write 1) = some p) :
    ({ s with script := script, pipes := Function.update s.pipes o p } : Child).Sync := by
  obtain ⟨-, -, rfl⟩ := LogPipe.step_write hp
  refine ⟨fun o' => ?_, fun o' => ?_, fun hexit => ?_, fun o' => ?_⟩
  · have hw := h.toWrite o'
    rw [hscript, bytesOf_cons] at hw
    by_cases ho : o = o'
    · subst ho
      simp [hw]
    · simpa [Function.update_of_ne (Ne.symm ho), ho] using hw
  · by_cases ho : o = o'
    · subst ho
      simpa using h.closed o
    · simpa [Function.update_of_ne (Ne.symm ho)] using h.closed o'
  · rw [h.script hexit] at hscript
    simp at hscript
  · by_cases ho : o = o'
    · subst ho
      simpa using h.messages o
    · simpa [Function.update_of_ne (Ne.symm ho)] using h.messages o'

theorem Sync.exit {pipes : Output → LogPipe} (h : s.Sync) (hscript : s.script = [])
    (hp : ∀ o, (s.pipes o).step capacity .close = some (pipes o)) :
    ({ s with pipes := pipes, exited := true } : Child).Sync := by
  have hpipes : ∀ o, pipes o = { s.pipes o with closed := true } := fun o =>
    (LogPipe.step_close (hp o)).2.2
  exact ⟨fun o => by simpa [hpipes o] using h.toWrite o, fun o => by simp [hpipes o],
    fun _ => hscript, fun o => by simpa [hpipes o] using h.messages o⟩

theorem Sync.read {p : LogPipe} (h : s.Sync) (hp : (s.pipes o).step capacity .read = some p) :
    ({ s with
      pipes := Function.update s.pipes o p
      messages := s.messages ++ (p.logged.drop (s.pipes o).logged.length).map (o, ·) } :
      Child).Sync := by
  obtain ⟨hlogged, htoWrite, hclosed⟩ := LogPipe.step_read_keeps hp
  refine ⟨fun o' => ?_, fun o' => ?_, h.script, fun o' => ?_⟩
  · by_cases ho : o = o'
    · subst ho
      simpa [htoWrite] using h.toWrite o
    · simpa [Function.update_of_ne (Ne.symm ho)] using h.toWrite o'
  · by_cases ho : o = o'
    · subst ho
      simpa [hclosed] using h.closed o
    · simpa [Function.update_of_ne (Ne.symm ho)] using h.closed o'
  · rw [List.filterMap_append, h.messages o', List.filterMap_map]
    by_cases ho : o = o'
    · subst ho
      simp [List.prefix_iff_eq_append.1 hlogged]
    · simp [Function.update_of_ne (Ne.symm ho), ho]

theorem Sync.step (h : s.Sync) {e : ChildEvent} (he : s.step capacity e = some s') : s'.Sync := by
  rcases childStep he with ⟨o, b, script, p, hscript, hp⟩ | ⟨pipes, hscript, -, hp⟩ | ⟨o, p, hp⟩
  · exact h.write hscript hp
  · exact h.exit hscript hp
  · exact h.read hp

theorem sync_run {es : List ChildEvent} (h : run (Child.step capacity) (start script) es = some s) :
    s.Sync :=
  run_invariant sync_start (fun _ _ _ hm he => hm.step he) h

/-- Each step does some of what is left. -/
def left (s : Child) : ℕ :=
  (s.pipes .stdout).left + (s.pipes .stderr).left

theorem step_left {e : ChildEvent} (h : s.step capacity e = some s') : s'.left < s.left := by
  have hpipe : ∀ {o p x}, (s.pipes o).step capacity x = some p →
      (Function.update s.pipes o p .stdout).left + (Function.update s.pipes o p .stderr).left <
        s.left := by
    intro o p x hp
    have hlt := LogPipe.step_left hp
    cases o <;> simpa [left, Function.update] using hlt
  rcases childStep h with ⟨o, b, script, p, -, hp⟩ | ⟨pipes, -, -, hp⟩ | ⟨o, p, hp⟩
  · exact hpipe hp
  · exact Nat.add_lt_add (LogPipe.step_left (hp .stdout)) (LogPipe.step_left (hp .stderr))
  · exact hpipe hp

/-- A pipe of the two, between what it was given and what was read of it. -/
theorem reaches_run {es : List ChildEvent}
    (h : run (Child.step capacity) (start script) es = some s) (o : Output) :
    (s.pipes o).Reaches (bytesOf o script) ∧ (s.pipes o).Drains (bytesOf o script) ∧
      (s.pipes o).pipe.length ≤ capacity := by
  have hpipe := run_pipe h o
  refine ⟨?_, LogPipe.drains_of_run hpipe, ?_⟩
  · refine run_induction (P := fun _ (p : LogPipe) => p.Reaches (bytesOf o script))
      LogPipe.Reaches.start ?_ hpipe
    exact fun es m e m' hm ih he => ih.step (LogPipe.drains_of_run hm).closed he
  · refine run_invariant (I := fun p : LogPipe => p.pipe.length ≤ capacity)
      (by simp [LogPipe.start]) ?_ hpipe
    intro m e m' hm he
    rcases e with n | _ | _
    · rw [LogPipe.step, Option.ite_none_right_eq_some] at he
      obtain rfl := Option.some.inj he.2
      have hroom := he.1.2.2
      simp only [List.length_append, List.length_take]
      omega
    · obtain ⟨-, -, rfl⟩ := LogPipe.step_close he
      exact hm
    · obtain ⟨line, -, ⟨b, rest, hp, rfl⟩ | ⟨-, -, rfl⟩⟩ := LogPipe.step_read he
      · rw [hp, List.length_cons] at hm
        split_ifs
        · simp only [LogPipe.logLine_pipe]
          omega
        · simp only
          omega
      · split_ifs
        · exact hm
        · simpa using hm

/-- A child that waits has filled the pipe of a thread that has stopped. -/
theorem Stuck.waits (hcap : 0 < capacity) (hs : s.Sync) (h : s.Stuck capacity)
    (hrun : s.exited = false) : ∃ o, (s.pipes o).toWrite ≠ [] ∧
      capacity ≤ (s.pipes o).pipe.length ∧ ∀ rest, (s.pipes o).toRead rest = 0 := by
  rcases hscript : s.script with _ | ⟨⟨o, b⟩, script⟩
  · -- with nothing to write, it can exit
    have hclose : ∀ o, (s.pipes o).step capacity .close = some { s.pipes o with closed := true } :=
      fun o => by
        have hw := hs.toWrite o
        have hc := hs.closed o
        rw [hscript] at hw
        rw [hrun] at hc
        simp [LogPipe.step, hw, hc, bytesOf]
    have hexit := h .exit
    simp [step, hscript, hrun, hclose] at hexit
  · have hw : (s.pipes o).toWrite ≠ [] := by
      rw [hs.toWrite o, hscript, bytesOf_cons, if_pos rfl]
      simp
    have hfull : capacity ≤ (s.pipes o).pipe.length := by
      by_contra hroom
      have hwrite := h (.write o)
      have hpos := List.length_pos_iff.2 hw
      simp only [step, hscript, if_true, Option.map_eq_none_iff, LogPipe.step] at hwrite
      rw [if_pos ⟨Nat.one_pos, hpos, by omega⟩] at hwrite
      simp at hwrite
    refine ⟨o, hw, hfull, fun rest => ?_⟩
    have hread := h (.read o)
    simp only [step, Option.map_eq_none_iff] at hread
    rcases LogPipe.read_stuck hread with hr | ⟨e, hr⟩ | ⟨hp, -⟩
    · simp [LogPipe.toRead, hr]
    · simp [LogPipe.toRead, hr]
    · rw [hp, List.length_nil] at hfull
      omega

/-- Nothing holds a child up whose streams fit. -/
theorem Stuck.exited (hcap : 0 < capacity) {script : List (Output × UInt8)}
    {es : List ChildEvent} (h : run (step capacity) (.start script) es = some s)
    (hstuck : s.Stuck capacity)
    (hfits : ∀ o, (bytesOf o script).length ≤ readTo true (bytesOf o script) + capacity) :
    s.exited = true := by
  by_contra hrun
  obtain ⟨o, hw, hfull, hstop⟩ := hstuck.waits hcap (sync_run h) (by simpa using hrun)
  obtain ⟨⟨read, hstream, hreach⟩, -, -⟩ := reaches_run h o
  have hle := hfits o
  have hpos := List.length_pos_iff.2 hw
  rw [hreach, hstop, hstream] at hle
  simp only [List.length_append] at hle
  omega

end Child

/-- An ASCII stream is read to its end. -/
theorem readTo_ascii {stream : List UInt8} (h : Ascii stream) :
    readTo true stream = stream.length := by
  induction stream with
  | nil => rfl
  | cons b stream ih =>
    have hb : b < 128 := h b (by simp)
    simp [readTo, hb, ih fun c hc => h c (by simp [hc])]

namespace Child

variable {capacity : ℕ} {script : List (Output × UInt8)} {s : Child} {es : List ChildEvent}

/-- Of a stream whose level it takes, a handler writes every message. -/
theorem written_of (s : Child) (h : Handler) (o : Output) :
    ((s.written h).filterMap fun m => if m.1 = o then some m.2 else none) =
      if h.level.no ≤ o.level.no then
        s.messages.filterMap fun m => if m.1 = o then some m.2 else none
      else [] := by
  rw [written, List.filterMap_filter]
  split_ifs with hlevel
  · refine List.filterMap_congr fun m _ => ?_
    by_cases hm : m.1 = o <;> simp [hm, hlevel]
  · rw [List.filterMap_eq_nil_iff]
    intro m _
    by_cases hm : m.1 = o <;> simp [hm, hlevel]

/-- A thread whose stream is ASCII and ends with a newline has logged its lines. -/
theorem Stuck.logged
    (h : run (Child.step capacity) (.start script) es = some s) (hstuck : s.Stuck capacity)
    (hexit : s.exited = true) {o : Output} (hascii : Ascii (bytesOf o script))
    (hterm : Terminated (bytesOf o script)) :
    (s.pipes o).logged.map (·.map Char.toNat) =
      (lines lf (bytesOf o script)).map (·.map UInt8.toNat) := by
  obtain ⟨-, hdrains, -⟩ := reaches_run h o
  have hread := hstuck (.read o)
  simp only [step, Option.map_eq_none_iff] at hread
  rcases LogPipe.read_stuck hread with hr | ⟨e, hr⟩ | ⟨-, hopen⟩
  · rcases (hdrains.ended hr).2 with hintact | hcut
    · have heq := hintact.lines_eq
      rwa [if_pos rfl, List.append_nil] at heq
    · exact absurd hterm hcut.not_terminated
  · exact absurd hascii (hdrains.raised hr)
  · rw [(sync_run h).closed o, hexit] at hopen
    simp at hopen

end Child

/-- A child whose streams are ASCII and end with a newline exits, and every handler of
`setup_logger` has then written the lines of the streams whose level it takes, and nothing
else : the console and `benchmark.log` those of the errors, `benchmark_verbose.log` both. -/
theorem handlers_write {capacity : ℕ} (hcap : 0 < capacity) {script : List (Output × UInt8)}
    (hascii : ∀ o, Ascii (bytesOf o script)) (hterm : ∀ o, Terminated (bytesOf o script))
    {es : List ChildEvent} {s : Child}
    (h : run (Child.step capacity) (.start script) es = some s) (hstuck : s.Stuck capacity) :
    s.exited = true ∧ ∀ (handler : Handler) o,
      ((s.written handler).filterMap fun m => if m.1 = o then some m.2 else none).map
          (·.map Char.toNat) =
        if handler = .verboseFile ∨ o = .stderr then
          (lines lf (bytesOf o script)).map (·.map UInt8.toNat)
        else [] := by
  have hexit : s.exited = true := by
    refine hstuck.exited hcap h fun o => ?_
    rw [readTo_ascii (hascii o)]
    exact Nat.le_add_right _ _
  refine ⟨hexit, fun handler o => ?_⟩
  have hlevel : handler.level.no ≤ o.level.no ↔ handler = .verboseFile ∨ o = .stderr := by
    cases handler <;> cases o <;> decide
  rw [Child.written_of, (Child.sync_run h).messages o]
  by_cases htakes : handler.level.no ≤ o.level.no
  · rw [if_pos htakes, if_pos (hlevel.1 htakes)]
    exact hstuck.logged h hexit (hascii o) (hterm o)
  · rw [if_neg htakes, if_neg (mt hlevel.2 htakes)]
    rfl

/-- `o` and `e`, each with a newline, one to each stream. -/
def sampleScript : List (Output × UInt8) :=
  [(.stdout, 111), (.stderr, 101), (.stderr, 10), (.stdout, 10)]

def sampleChildRun : List ChildEvent :=
  [.write .stdout, .write .stderr, .write .stderr, .read .stderr, .read .stdout, .read .stderr,
    .write .stdout, .exit, .read .stdout, .read .stderr, .read .stdout]

theorem sampleChildRun_stuck : ∃ s,
    run (Child.step 2) (.start sampleScript) sampleChildRun = some s ∧ s.Stuck 2 := by
  refine ⟨_, rfl, ?_⟩
  rintro (o | _ | o)
  · rfl
  · rfl
  · cases o <;> rfl

theorem handlers_write_sample : ∃ s,
    run (Child.step 2) (.start sampleScript) sampleChildRun = some s ∧
      ((s.written .file).filterMap fun m => if m.1 = .stderr then some m.2 else none).map
        (·.map Char.toNat) = [[101]] := by
  obtain ⟨s, hrun, hstuck⟩ := sampleChildRun_stuck
  refine ⟨s, hrun, ((handlers_write (by decide) ?_ ?_ hrun hstuck).2 .file .stderr).trans ?_⟩
  · rintro (_ | _) <;> simp [Ascii, bytesOf, sampleScript]
  · rintro (_ | _) <;> simp [Terminated, bytesOf, sampleScript, lf]
  · decide

end TracerBench
