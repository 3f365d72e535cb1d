import ChannelHeaders.Resolution

/-!
# Headers resolved by several threads

Threads resolve headers at the same time, and share the surroundings and the progress.
Each goes on by steps, of which the others see nothing or the whole.  A scheduler picks the
thread that takes the next step.

A timestamp takes two steps: the clock is read, and then the mark is raised to the reading.
Other threads may go on in between.  Hence a reading may be out of date when it is used.

**Results.**
* `Thread.next_read`, `Thread.next_raise`: the two steps of a timestamp.
* `Machine.run_append`: a schedule goes on where it stopped.
* `Machine.run_alone`: a thread that nobody interrupts answers as if there were no other.
-/

namespace ChannelHeaders

open Payload

/-- A call that evaluates templates. -/
inductive Call where
  | template (fields : Fields) (text : String)
  | headers (spec : Specification) (topic : String) (fields : Fields)

/-- What a thread has to do. -/
inductive Task where
  /-- Warn that a topic has no headers. -/
  | warn (topic : String)
  /-- Evaluate the template of a header. -/
  | evaluate (fields : Fields) (name text : String)

namespace Call

/-- What a call answers when it is not interrupted.  A template has no name of its own. -/
def answer (s : Surroundings) : Call → StateM Progress (List (String × String))
  | .template fields text => evaluateAll s fields [("", text)]
  | .headers spec topic fields => return (← resolveHeaders s spec topic fields).pairs

/-- The tasks of a call. -/
def tasks : Call → List Task
  | .template fields text => [.evaluate fields "" text]
  | .headers spec topic fields =>
      match spec.templates? topic with
      | none => [.warn topic]
      | some templates => templates.entries.map fun t => .evaluate fields t.1 t.2

end Call

/-- A thread that performs tasks. -/
structure Thread where
  /-- The number of tasks that are done. -/
  done : Nat
  /-- The tasks that are left. -/
  tasks : List Task
  /-- The reading of the clock that the first of them took. -/
  reading : Option Instant
  /-- The headers that are resolved. -/
  headers : List (String × String)

/-- What a thread does in one step. -/
inductive Act where
  | rest
  | warn
  | evaluate
  /-- Reads the clock. -/
  | read (now : Instant)
  /-- Raises the mark to a reading, and gets the mark. -/
  | raise (now : Instant) (value : Nat)
deriving DecidableEq

namespace Thread

/-- Before its tasks. -/
def start (tasks : List Task) : Thread :=
  ⟨0, tasks, none, []⟩

/-- The next step of a thread. -/
def next
    (s : Surroundings)
    (t : Thread) :
    StateM Progress (Act × Thread) :=
  match t.tasks with
  | [] => return (.rest, t)
  | .warn topic :: tasks => do
      report (.noTemplates topic)
      return (.warn, ⟨t.done + 1, tasks, none, t.headers⟩)
  | .evaluate fields name text :: tasks =>
      match Template.parse text, t.reading with
      | .timestamp, none => do
          let now ← readClock s
          return (.read now, { t with reading := some now })
      | .timestamp, some now => do
          let value ← raiseMark now.milliseconds
          return (.raise now value,
            ⟨t.done + 1, tasks, none, t.headers ++ [(name, toString value)]⟩)
      | template, _ => do
          let value ← template.evaluate s fields
          return (.evaluate, ⟨t.done + 1, tasks, none, t.headers ++ [(name, value)]⟩)

section Steps

variable {t : Thread} {tasks : List Task} {fields : Fields} {name text : String}
variable (s : Surroundings) (p : Progress)

/-- A thread whose calls are answered rests. -/
theorem next_of_nil (h : t.tasks = []) : t.next s p = ((.rest, t), p) := by
  rw [next, h]
  rfl

theorem next_warn
    {topic : String}
    (h : t.tasks = .warn topic :: tasks) :
    t.next s p =
      ((.warn, ⟨t.done + 1, tasks, none, t.headers⟩),
        { p with events := p.events ++ [.noTemplates topic] }) := by
  rw [next, h]
  rfl

/-- The first step of a timestamp only reads the clock. -/
theorem next_read
    (h : t.tasks = .evaluate fields name text :: tasks)
    (hparse : Template.parse text = .timestamp)
    (hreading : t.reading = none) :
    t.next s p =
      ((.read (s.clock p.readings), { t with reading := some (s.clock p.readings) }),
        { p with readings := p.readings + 1 }) := by
  simp only [next, h, hparse, hreading]
  rfl

/-- The second step of a timestamp raises the mark to the reading, and the mark is the value. -/
theorem next_raise
    (h : t.tasks = .evaluate fields name text :: tasks)
    (hparse : Template.parse text = .timestamp)
    {now : Instant}
    (hreading : t.reading = some now) :
    let mark := max p.mark now.milliseconds
    t.next s p =
      ((.raise now mark, ⟨t.done + 1, tasks, none, t.headers ++ [(name, toString mark)]⟩),
        { p with mark }) := by
  simp only [next, h, hparse, hreading]
  rfl

/-- Any other template is evaluated in one step. -/
theorem next_evaluate
    (h : t.tasks = .evaluate fields name text :: tasks)
    (hparse : Template.parse text ≠ .timestamp) :
    let result := resolveTemplate s fields text p
    t.next s p =
      ((.evaluate, ⟨t.done + 1, tasks, none, t.headers ++ [(name, result.1)]⟩), result.2) := by
  simp only [next, h, resolveTemplate]
  cases hclass : Template.parse text with
  | timestamp => exact absurd hclass hparse
  | literal part => rfl
  | unknown part => rfl
  | identifier => rfl
  | payloadField field => rfl

end Steps

end Thread

/-- An act, with its thread and the number of its task there. -/
structure Moment where
  thread : Nat
  task : Nat
  act : Act
deriving DecidableEq

/-- Threads with a common progress. -/
structure Machine where
  progress : Progress
  thread : Nat → Thread

namespace Machine

/-- Every thread before its calls. -/
def start (calls : Nat → List Call) : Machine :=
  ⟨.start, fun i => .start ((calls i).flatMap Call.tasks)⟩

/-- The machine after a step of a thread. -/
def put
    (m : Machine)
    (i : Nat)
    (t : Thread)
    (p : Progress) :
    Machine :=
  ⟨p, fun j => if j = i then t else m.thread j⟩

/-- A step of a thread. -/
def step
    (s : Surroundings)
    (i : Nat)
    (m : Machine) :
    Moment × Machine :=
  let ((act, t), p) := (m.thread i).next s m.progress
  (⟨i, (m.thread i).done, act⟩, m.put i t p)

/-- The steps of a schedule, with what happened. -/
def run (s : Surroundings) : List Nat → Machine → List Moment × Machine
  | [], m => ([], m)
  | i :: schedule, m =>
      let (moment, m) := m.step s i
      let (history, m) := run s schedule m
      (moment :: history, m)

section Putting

variable (m : Machine) (i : Nat) (t t' : Thread) (p p' : Progress)

@[simp] theorem put_progress : (m.put i t p).progress = p :=
  rfl

@[simp] theorem put_thread_self : (m.put i t p).thread i = t :=
  if_pos rfl

theorem put_thread_of_ne
    {j : Nat}
    (h : j ≠ i) :
    (m.put i t p).thread j = m.thread j :=
  if_neg h

/-- Of two states of one thread the later one counts. -/
theorem put_put : (m.put i t p).put i t' p' = m.put i t' p' := by
  refine congrArg (Machine.mk p') (funext fun j => ?_)
  by_cases h : j = i
  · rw [if_pos h, if_pos h]
  · rw [if_neg h, if_neg h]
    exact put_thread_of_ne m i t p h

end Putting

section Runs

variable (s : Surroundings)

theorem step_eq
    (i : Nat)
    (m : Machine) :
    m.step s i =
      (⟨i, (m.thread i).done, ((m.thread i).next s m.progress).1.1⟩,
        m.put i ((m.thread i).next s m.progress).1.2 ((m.thread i).next s m.progress).2) :=
  rfl

theorem run_cons
    (i : Nat)
    (schedule : List Nat)
    (m : Machine) :
    run s (i :: schedule) m =
      ((m.step s i).1 :: (run s schedule (m.step s i).2).1,
        (run s schedule (m.step s i).2).2) :=
  rfl

/-- Schedules in a row start from where the earlier one leads. -/
theorem run_append
    (schedule more : List Nat)
    (m : Machine) :
    run s (schedule ++ more) m =
      ((run s schedule m).1 ++ (run s more (run s schedule m).2).1,
        (run s more (run s schedule m).2).2) := by
  induction schedule generalizing m with
  | nil => rfl
  | cons i schedule ih => rw [List.cons_append, run_cons, ih, run_cons]; rfl

end Runs

section Alone

variable (s : Surroundings) (fields : Fields) (m : Machine) (i : Nat)

/-- A step of a thread whose state is known. -/
theorem run_put
    (schedule : List Nat)
    {t t' : Thread}
    {p p' : Progress}
    {act : Act}
    (h : t.next s p = ((act, t'), p')) :
    (run s (i :: schedule) (m.put i t p)).2 = (run s schedule (m.put i t' p')).2 := by
  rw [run_cons, step_eq, put_thread_self, put_progress, h]
  exact congrArg (fun m => (run s schedule m).2) (put_put m i t t' p p')

/-- A thread evaluates a template in one step, or in two. -/
theorem run_evaluate
    (t : Thread)
    {name text : String}
    {tasks : List Task}
    (h : t.tasks = .evaluate fields name text :: tasks)
    (hreading : t.reading = none)
    (p : Progress) :
    let result := resolveTemplate s fields text p
    ∃ steps,
      (run s (List.replicate steps i) (m.put i t p)).2 =
        m.put i ⟨t.done + 1, tasks, none, t.headers ++ [(name, result.1)]⟩ result.2 := by
  intro result
  by_cases hparse : Template.parse text = .timestamp
  · refine ⟨2, ?_⟩
    let waiting : Thread := { t with reading := some (s.clock p.readings) }
    have htasks : waiting.tasks = .evaluate fields name text :: tasks := h
    have hraise := Thread.next_raise s { p with readings := p.readings + 1 } htasks hparse rfl
    rw [List.replicate_succ, run_put s m i _ (Thread.next_read s p h hparse hreading),
      List.replicate_one, run_put s m i _ hraise]
    simp only [result, resolveTemplate, hparse]
    rfl
  · refine ⟨1, ?_⟩
    rw [List.replicate_one, run_put s m i _ (Thread.next_evaluate s p h hparse)]
    rfl

/-- A thread evaluates templates one after another. -/
theorem run_evaluateAll
    (ts : List (String × String))
    (rest : List Task) :
    ∀ (t : Thread) (p : Progress),
      t.tasks = (ts.map fun t => .evaluate fields t.1 t.2) ++ rest →
      t.reading = none →
      let result := evaluateAll s fields ts p
      ∃ steps,
        (run s (List.replicate steps i) (m.put i t p)).2 =
          m.put i ⟨t.done + ts.length, rest, none, t.headers ++ result.1⟩ result.2 := by
  induction ts with
  | nil =>
      intro t p h hreading
      obtain ⟨done, tasks, reading, headers⟩ := t
      cases h
      cases hreading
      refine ⟨0, ?_⟩
      exact congrArg (fun hs => m.put i ⟨done, rest, none, hs⟩ p) (List.append_nil headers).symm
  | cons t' ts ih =>
      intro t p h hreading
      let tasks : List Task := (ts.map fun t => .evaluate fields t.1 t.2) ++ rest
      let result := resolveTemplate s fields t'.2 p
      have htasks : t.tasks = .evaluate fields t'.1 t'.2 :: tasks := h
      obtain ⟨first, hfirst⟩ := run_evaluate s fields m i t htasks hreading p
      obtain ⟨more, hmore⟩ :=
        ih ⟨t.done + 1, tasks, none, t.headers ++ [(t'.1, result.1)]⟩ result.2 rfl rfl
      refine ⟨first + more, ?_⟩
      rw [← List.replicate_append_replicate, run_append, hfirst, hmore, List.append_assoc,
        Nat.add_right_comm]
      rfl

/-- A thread that nobody interrupts answers its calls as if there were no other. -/
theorem run_alone
    (call : Call)
    (rest : List Task)
    (t : Thread)
    (p : Progress)
    (h : t.tasks = call.tasks ++ rest)
    (hreading : t.reading = none) :
    let result := call.answer s p
    ∃ steps,
      (run s (List.replicate steps i) (m.put i t p)).2 =
        m.put i ⟨t.done + call.tasks.length, rest, none, t.headers ++ result.1⟩ result.2 := by
  cases call with
  | template fields text => exact run_evaluateAll s fields m i [("", text)] rest t p h hreading
  | headers spec topic fields =>
      rw [Call.tasks] at h ⊢
      cases htemplates : spec.templates? topic with
      | none =>
          rw [htemplates] at h
          refine ⟨1, ?_⟩
          rw [List.replicate_one, run_put s m i _ (Thread.next_warn s p h)]
          simp only [Call.answer, resolveHeaders, htemplates]
          exact congrArg (fun hs => m.put i ⟨t.done + 1, rest, none, hs⟩ _)
            (List.append_nil t.headers).symm
      | some templates =>
          rw [htemplates] at h
          obtain ⟨steps, hsteps⟩ :=
            run_evaluateAll s fields m i templates.entries rest t p h hreading
          refine ⟨steps, hsteps.trans ?_⟩
          simp only [Call.answer, resolveHeaders, htemplates, List.length_map]
          rfl

end Alone

end Machine

end ChannelHeaders
