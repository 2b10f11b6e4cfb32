import ScriptVault.Async.Fiber
import ScriptVault.Table

/-!
# Schedule — who runs next, and when

Fibers run one at a time, in the order in which they become ready.  Time stands still while anything can
run, and then moves on to the next moment somebody waits for.  A fiber that waits for shared work takes it
up itself if nobody else does; when that work can go on, all who wait for it become ready.  Jobs of the
workers run when no fiber can, in the order in which they were handed over; a job that waits for a free
worker gets the first one that becomes free.
-/

namespace ScriptVault

/-- What is told that something can go on. -/
inductive Waker where
  /-- The fiber that all is run for. -/
  | root
  /-- A task. -/
  | task (id : Nat)
  /-- Shared work, and through it all who wait for it. -/
  | share (id : Nat)
  deriving DecidableEq, Repr

/-- Where a fiber stands. -/
inductive Parked (σ ω : Type) where
  /-- It has ended. -/
  | finished
  /-- It has yet to run. -/
  | fresh (fiber : Fiber σ ω)
  /-- It waits for shared work, and is told through a slot there. -/
  | awaiting (id slot : Nat) (next : Fiber σ ω)
  /-- It waits for a task, or for a timer. -/
  | joining (id : Nat) (timer : Option Nat) (next : Bool → Fiber σ ω)
  /-- It waits for a timer. -/
  | sleeping (timer : Nat) (next : Fiber σ ω)
  /-- It lets others go first. -/
  | resting (next : Fiber σ ω)
  /-- It waits for a free worker. -/
  | queued (ticket : Nat) (job : σ → σ) (next : Fiber σ ω)
  /-- It waits for a worker to end its job. -/
  | working (ticket : Nat) (next : Fiber σ ω)
  /-- It waits for two others. -/
  | both (first second : Parked σ ω) (next : Fiber σ ω)

/-- The fiber has ended. -/
def Parked.isFinished {σ ω : Type} : Parked σ ω → Bool
  | finished => true
  | _ => false

/-- Work that several may wait for. -/
structure Shared (σ ω : Type) where
  /-- Where it stands. -/
  work : Parked σ ω
  /-- Who is told when it can go on; a slot is emptied when it is used. -/
  slots : List (Option Waker) := []
  /-- Somebody is running it. -/
  busy : Bool := false

/-- Somebody who waits for a moment. -/
structure Timer where
  /-- The number of the timer. -/
  id : Nat
  /-- The millisecond that is waited for. -/
  tick : Nat
  /-- Who is told. -/
  waker : Waker

/-- A job that a worker has taken. -/
structure Job (σ : Type) where
  /-- The number under which its end is waited for. -/
  ticket : Nat
  /-- What the worker does. -/
  run : σ → σ
  /-- Who is told. -/
  waker : Waker

/-- All fibers, with what they wait for. -/
structure Schedule (σ ω : Type) where
  /-- The state that all fibers share. -/
  state : σ
  /-- How many jobs may still be taken by workers. -/
  workers : Nat := 1
  /-- The time in milliseconds. -/
  now : Nat := 0
  /-- The fiber that all is run for. -/
  root : Parked σ ω := .finished
  /-- The root can go on. -/
  rootReady : Bool := false
  /-- The tasks that can go on, the first to run first. -/
  ready : List Nat := []
  /-- The tasks that have not ended. -/
  tasks : Table Nat (Parked σ ω) := []
  /-- Who waits for a task. -/
  joiners : Table Nat Waker := []
  /-- The shared work that has not ended. -/
  shares : Table Nat (Shared σ ω) := []
  /-- The timers that have not gone off, in the order in which they were set. -/
  timers : List Timer := []
  /-- Who lets others go first. -/
  resting : List Waker := []
  /-- The jobs that workers have taken. -/
  jobs : List (Job σ) := []
  /-- The tickets that wait for a worker. -/
  queue : List (Nat × Waker) := []
  /-- The tickets that were given a worker. -/
  granted : List Nat := []
  /-- The next number of a timer or ticket. -/
  next : Nat := 0
  /-- The task that runs. -/
  running : Option Nat := none
  /-- The task that runs was told that it can go on. -/
  again : Bool := false

/-- How descriptions of work are understood. -/
structure Plan (σ ω : Type) where
  /-- The fiber that does the work of a number. -/
  perform : Nat → ω → Fiber σ ω
  /-- The tasks that a state asks for, and the state without them. -/
  collect : σ → List (Nat × ω) × σ

namespace Schedule

variable {σ ω : Type}

/-! ### Telling who can go on -/

/-- Tells somebody; wakers pass through at most `depth` shared works. -/
def wake : Nat → Schedule σ ω → Waker → Schedule σ ω
  | _, s, .root => { s with rootReady := true }
  | _, s, .task id =>
    if s.running = some id then { s with again := true }
    else if s.ready.contains id || (s.tasks.at? id).isNone then s
    else { s with ready := s.ready ++ [id] }
  | 0, s, .share _ => s
  | depth + 1, s, .share id =>
    match s.shares.at? id with
    | none => s
    | some shared =>
      let emptied := { shared with slots := shared.slots.map fun _ => none }
      (shared.slots.filterMap fun slot => slot).foldl (wake depth)
        { s with shares := s.shares.put id emptied }

/-- Tells somebody. -/
def tell (s : Schedule σ ω) (waker : Waker) : Schedule σ ω := wake s.shares.length s waker

/-- Starts a task. -/
def start (s : Schedule σ ω) (id : Nat) (fiber : Fiber σ ω) : Schedule σ ω :=
  { s with tasks := s.tasks.put id (.fresh fiber), ready := s.ready ++ [id] }

/-- Takes over a state, and starts the tasks that it asks for. -/
def adopt (plan : Plan σ ω) (s : Schedule σ ω) (state : σ) : Schedule σ ω :=
  let (asked, state) := plan.collect state
  asked.foldl (fun s (id, work) => s.start id (plan.perform id work)) { s with state := state }

/-! ### Waiting -/

/-- The nanoseconds of a millisecond. -/
def nanosPerTick : Nat := 1000000

/-- The milliseconds that some nanoseconds take up, a part of one counted as a whole. -/
def ticks (nanos : Nat) : Nat :=
  nanos / nanosPerTick + if nanos % nanosPerTick = 0 then 0 else 1

/-- Sets a timer; one that has no time to wait is not set. -/
def setTimer (s : Schedule σ ω) (nanos : Nat) (waker : Waker) : Option Nat × Schedule σ ω :=
  if ticks nanos = 0 then (none, s)
  else
    (some s.next,
      { s with timers := s.timers ++ [⟨s.next, s.now + ticks nanos, waker⟩], next := s.next + 1 })

/-- The timer has not gone off. -/
def isSet (s : Schedule σ ω) (timer : Nat) : Bool := s.timers.any (·.id == timer)

/-- Lets a timer tell somebody else. -/
def retime (s : Schedule σ ω) (timer : Nat) (waker : Waker) : Schedule σ ω :=
  { s with timers := s.timers.map fun t => if t.id = timer then { t with waker := waker } else t }

/-- Removes a timer. -/
def dropTimer (s : Schedule σ ω) (timer : Option Nat) : Schedule σ ω :=
  { s with timers := s.timers.filter fun t => some t.id != timer }

/-- Waits for a task. -/
def joined (s : Schedule σ ω) (id : Nat) (waker : Waker) : Schedule σ ω :=
  { s with joiners := s.joiners.put id waker }

/-- Waits for a task no longer. -/
def unjoined (s : Schedule σ ω) (id : Nat) : Schedule σ ω := { s with joiners := s.joiners.erase id }

/-- Lets others go first; whoever is the last to do so already is not counted twice. -/
def deferred (s : Schedule σ ω) (waker : Waker) : Schedule σ ω :=
  if s.resting.getLast? = some waker then s else { s with resting := s.resting ++ [waker] }

/-- Hands a job to a worker. -/
def employ (s : Schedule σ ω) (ticket : Nat) (job : σ → σ) (waker : Waker) : Schedule σ ω :=
  { s with jobs := s.jobs ++ [⟨ticket, job, waker⟩] }

/-- Enters a slot of shared work, and tells which. -/
def enter (s : Schedule σ ω) (id : Nat) (shared : Shared σ ω) (slot : Option Nat) (waker : Waker) :
    Nat × Schedule σ ω :=
  match slot with
  | some n =>
    (n, { s with shares := s.shares.put id { shared with slots := shared.slots.set n (some waker) } })
  | none =>
    (shared.slots.length,
      { s with shares := s.shares.put id { shared with slots := shared.slots ++ [some waker] } })

/-! ### Running

`pump` runs shared work on behalf of somebody who waits for it. -/

/-- Looks for shared work that somebody waits for, and takes it up; tells the slot if it has not ended. -/
def visit (pump : Nat → Schedule σ ω → Schedule σ ω) (id : Nat) (slot : Option Nat) (waker : Waker)
    (s : Schedule σ ω) : Option Nat × Schedule σ ω :=
  match s.shares.at? id with
  | none => (none, s)
  | some shared =>
    let (slot, s) := s.enter id shared slot waker
    let s := if shared.busy then s else pump id s
    (if (s.shares.at? id).isSome then some slot else none, s)

/-- Runs a fiber until it has to wait or ends. -/
def drive (plan : Plan σ ω) (pump : Nat → Schedule σ ω → Schedule σ ω) (waker : Waker) :
    Fiber σ ω → Schedule σ ω → Parked σ ω × Schedule σ ω
  | .done, s => (.finished, s)
  | .look next, s => drive plan pump waker (next s.state) s
  | .leave state next, s => drive plan pump waker next (s.adopt plan state)
  | .share id work next, s =>
    drive plan pump waker next
      { s with shares := s.shares.put id { work := .fresh (plan.perform id work) } }
  | .await id next, s =>
    match visit pump id none waker s with
    | (none, s) => drive plan pump waker next s
    | (some slot, s) => (.awaiting id slot next, s)
  | .spawn id work next, s => drive plan pump waker next (s.start id (plan.perform id work))
  | .join id limit next, s =>
    if (s.tasks.at? id).isNone then drive plan pump waker (next true) s
    else
      match limit with
      | none => (.joining id none next, s.joined id waker)
      | some nanos =>
        match s.setTimer nanos waker with
        | (none, s) => drive plan pump waker (next false) s
        | (some timer, s) => (.joining id (some timer) next, s.joined id waker)
  | .sleep nanos next, s =>
    match s.setTimer nanos waker with
    | (none, s) => drive plan pump waker next s
    | (some timer, s) => (.sleeping timer next, s)
  | .rest next, s => (.resting next, s.deferred waker)
  | .consult next, s => drive plan pump waker next s
  | .offload job next, s =>
    let ticket := s.next
    let s := { s with next := s.next + 1 }
    if s.workers = 0 then
      (.queued ticket job next, { s with queue := s.queue ++ [(ticket, waker)] })
    else (.working ticket next, { s with workers := s.workers - 1 }.employ ticket job waker)
  | .both first second next, s =>
    let (first, s) := drive plan pump waker first s
    let (second, s) := drive plan pump waker second s
    if first.isFinished && second.isFinished then drive plan pump waker next s
    else (.both first second next, s)

/-- Lets a fiber go on that may have what it waits for. -/
def resume (plan : Plan σ ω) (pump : Nat → Schedule σ ω → Schedule σ ω) (waker : Waker) :
    Parked σ ω → Schedule σ ω → Parked σ ω × Schedule σ ω
  | .finished, s => (.finished, s)
  | .fresh fiber, s => drive plan pump waker fiber s
  | .awaiting id slot next, s =>
    match visit pump id (some slot) waker s with
    | (none, s) => drive plan pump waker next s
    | (some slot, s) => (.awaiting id slot next, s)
  | .joining id timer next, s =>
    if (s.tasks.at? id).isNone then drive plan pump waker (next true) (s.dropTimer timer)
    else
      match timer with
      | none => (.joining id none next, s.joined id waker)
      | some t =>
        if s.isSet t then (.joining id (some t) next, (s.joined id waker).retime t waker)
        else drive plan pump waker (next false) (s.unjoined id)
  | .sleeping timer next, s =>
    if s.isSet timer then (.sleeping timer next, s.retime timer waker)
    else drive plan pump waker next s
  | .resting next, s => drive plan pump waker next s
  | .queued ticket job next, s =>
    if s.granted.contains ticket then
      (.working ticket next, { s with granted := s.granted.erase ticket }.employ ticket job waker)
    else
      (.queued ticket job next,
        { s with queue := s.queue.map fun (t, w) => if t = ticket then (t, waker) else (t, w) })
  | .working ticket next, s =>
    if s.jobs.any (·.ticket == ticket) then
      (.working ticket next,
        { s with jobs := s.jobs.map fun j => if j.ticket = ticket then { j with waker := waker } else j })
    else drive plan pump waker next s
  | .both first second next, s =>
    let (first, s) := resume plan pump waker first s
    let (second, s) := resume plan pump waker second s
    if first.isFinished && second.isFinished then drive plan pump waker next s
    else (.both first second next, s)

/-- Runs shared work, through at most `depth` others that it waits for. -/
def pump (plan : Plan σ ω) : Nat → Nat → Schedule σ ω → Schedule σ ω
  | 0, _, s => s
  | depth + 1, id, s =>
    match s.shares.at? id with
    | none => s
    | some shared =>
      let s := { s with shares := s.shares.put id { shared with busy := true } }
      let (work, s) := resume plan (pump plan depth) (.share id) shared.work s
      let slots := ((s.shares.at? id).map (·.slots)).getD []
      if work.isFinished then
        (slots.filterMap fun slot => slot).foldl tell { s with shares := s.shares.erase id }
      else { s with shares := s.shares.put id { work := work, slots := slots, busy := false } }

/-- How deep shared work may wait for other shared work. -/
def shareDepth : Nat := 100000

/-- Lets the root go on. -/
def runRoot (plan : Plan σ ω) (s : Schedule σ ω) : Schedule σ ω :=
  let (root, s) := resume plan (pump plan shareDepth) .root s.root { s with rootReady := false }
  { s with root := root }

/-- Lets a task go on. -/
def runTask (plan : Plan σ ω) (s : Schedule σ ω) (id : Nat) : Schedule σ ω :=
  match s.tasks.at? id with
  | none => s
  | some parked =>
    let (parked, s) := resume plan (pump plan shareDepth) (.task id) parked
      { s with running := some id, again := false }
    let s := { s with running := none }
    if parked.isFinished then
      let joiner := s.joiners.at? id
      let s := { s with tasks := s.tasks.erase id, joiners := s.joiners.erase id }
      joiner.elim s s.tell
    else
      { s with
        tasks := s.tasks.put id parked
        ready := if s.again then s.ready ++ [id] else s.ready }

/-- Lets all tasks go on that can, for at most `fuel` turns. -/
def runReady (plan : Plan σ ω) : Nat → Schedule σ ω → Schedule σ ω
  | 0, s => s
  | fuel + 1, s =>
    match s.ready with
    | [] => s
    | id :: ready => runReady plan fuel (runTask plan { s with ready := ready } id)

/-! ### When nothing can run -/

/-- Lets a worker do its job. -/
def runJob (plan : Plan σ ω) (s : Schedule σ ω) (job : Job σ) (rest : List (Job σ)) : Schedule σ ω :=
  let s := { s with jobs := rest }.adopt plan (job.run s.state)
  let s := match s.queue with
    | [] => { s with workers := s.workers + 1 }
    | (ticket, waker) :: queue =>
      { s with queue := queue, granted := s.granted ++ [ticket] }.tell waker
  s.tell job.waker

/-- Moves on to the next moment somebody waits for; none if nobody does. -/
def advance? (s : Schedule σ ω) : Option (Schedule σ ω) :=
  (s.timers.map (·.tick)).min?.map fun tick =>
    let (due, later) := s.timers.partition fun t => t.tick ≤ tick
    due.foldl (fun s t => s.tell t.waker) { s with now := max s.now tick, timers := later }

/-- Lets somebody go on when no task can; none if nobody can, or only with time. -/
def stir? (plan : Plan σ ω) (s : Schedule σ ω) : Option (Schedule σ ω) :=
  if !s.resting.isEmpty then some (s.resting.reverse.foldl tell { s with resting := [] })
  else if s.rootReady && !s.root.isFinished then some s
  else
    match s.jobs with
    | job :: rest => some (s.runJob plan job rest)
    | [] => none

/-- Runs until the root has ended, for at most `fuel` rounds. -/
def runToEnd (plan : Plan σ ω) : Nat → Schedule σ ω → Schedule σ ω
  | 0, s => s
  | fuel + 1, s =>
    let s := if s.rootReady then s.runRoot plan else s
    if s.root.isFinished then s
    else
      let s := s.runReady plan fuel
      match (s.stir? plan).orElse fun _ => s.advance? with
      | some s => runToEnd plan fuel s
      | none => s

/-- Runs all tasks until they wait for time, for at most `fuel` rounds. -/
def settle (plan : Plan σ ω) : Nat → Schedule σ ω → Schedule σ ω
  | 0, s => s
  | fuel + 1, s =>
    let s := s.runReady plan fuel
    match s.stir? plan with
    | some s => settle plan fuel s
    | none => s

/-- How many rounds a run may take. -/
def rounds : Nat := 10000000

/-- Runs a computation to its end, and then all that can go on without time passing. -/
def run {α : Type} (plan : Plan σ ω) (s : Schedule σ ω) (x : Async σ ω α) : Schedule σ ω :=
  let s := { s with root := .fresh x.fiber, rootReady := true }
  (s.runToEnd plan rounds).settle plan rounds

end Schedule

end ScriptVault
