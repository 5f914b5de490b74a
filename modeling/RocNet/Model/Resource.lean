import Mathlib.Algebra.Group.Nat.Defs
import RocNet.Model.Waiters

/-!
# Resource heaps

`ResourceHeap` of `resource.rs`: a fixed number of slots for sockets, channel ends or task handles. A slot is claimed
with a reservation, filled by `insert`, which gives Roc a handle, and emptied by `release` when Roc frees the handle.
A handle is the address of the slot's token; a token is a generation and the slot's index.

What an operation does with the mutex held is one step, and so is each access of a slot's resource and token outside
of it. Dropping a resource may release other handles, so a task has a stack of releases (`closing`). The tasks waiting
in `reserve` are listed as in `Model.Channel`.

`roc_channel_new` and `roc_task_spawn` are followed step by step; other functions of the host reserve slots and
insert, or drop the reservations, as they like. `UInt64` arithmetic wraps.
-/

namespace RocNet.Resource

open Sched (TaskId WaitId Woke)
open Function

/-! ## Addresses and tokens -/

/-- Where the slots of a heap are: how many, the address of the first, and the size of one. -/
structure Layout where
  capacity : ℕ
  start : ℕ
  stride : ℕ
  capacity_pos : 0 < capacity
  capacity_le : capacity ≤ 65535
  stride_gt : 8 < stride

/-- `offset_of!(Slot<T>, token)`. -/
def tokenOffset : ℕ := 8

namespace Layout

variable (x : Layout)

/-- The slot at an address. -/
def baseIndex (address : ℕ) : Option ℕ :=
  if x.start ≤ address then
    if (address - x.start) % x.stride = 0 ∧ (address - x.start) / x.stride < x.capacity then
      some ((address - x.start) / x.stride)
    else none
  else none

/-- The slot whose token is at an address. -/
def payloadIndex (handle : ℕ) : Option ℕ :=
  if tokenOffset ≤ handle then x.baseIndex (handle - tokenOffset) else none

/-- The address of a slot. -/
def base (i : ℕ) : ℕ := x.start + i * x.stride

/-- The address of a slot's token, which is the handle Roc is given. -/
def payload (i : ℕ) : ℕ := x.base i + tokenOffset

end Layout

/-- `INDEX_MASK`, of `INDEX_BITS` = 16 bits. -/
def indexMask : UInt64 := 65535

def token (generation : UInt64) (i : ℕ) : UInt64 := (generation <<< 16) ||| UInt64.ofNat i

/-! ## What the mutex protects -/

/-- How a pass of the loop of `reserve` ends. -/
inductive Reserved
  | got (i : ℕ)
  | waiting
  | cancelled
  deriving DecidableEq, Repr

/-- `State` of `resource.rs`, and the waits of the tasks in `reserve`. The head of `free` is its end in
the source, where slots are taken. -/
structure Heap where
  free : List ℕ
  generations : ℕ → UInt64
  live : ℕ → Bool
  waiters : Waiters WaitId
  waits : Waits
  nextWait : WaitId
  parked : TaskId → Option (ℕ × WaitId)
  cancelled : TaskId → Bool

namespace Heap

variable (h : Heap) (t : TaskId) (i : ℕ)

@[simps] def setFree (l : List ℕ) : Heap := { h with free := l }

@[simps] def setWaits (x : Waits) : Heap := { h with waits := x }

/-- The slot taken, and the heap without it. -/
def tryReserve : Option (ℕ × Heap) :=
  match h.free with
  | [] => none
  | i :: rest => some (i, h.setFree rest)

/-- `Waiters::add`, and the first half of `park`: a task that has been cancelled claims its wait itself. -/
@[simps]
def park : Heap :=
  { h with
    waiters := h.waiters.addWaker h.nextWait
    waits := update h.waits h.nextWait (if h.cancelled t then some (.claimed .cancelled) else none)
    nextWait := h.nextWait + 1
    parked := update h.parked t (some (h.waiters.nextId, h.nextWait)) }

/-- After `park`: the mutex is held again and the entry removed. -/
@[simps]
def unpark (id : ℕ) : Heap :=
  { h with waiters := h.waiters.remove id, parked := update h.parked t none }

/-- A pass of the loop of `reserve`. -/
def reservePass : Reserved × Heap :=
  match h.tryReserve with
  | some (i, h') => (.got i, h')
  | none => (.waiting, h.park t)

/-- A task that was parked in `reserve` has the mutex again. -/
def relock (reported : Woke) : Option (Reserved × Heap) :=
  match h.parked t with
  | some (id, w) =>
    if reported = .cancelled → h.waits w = some (.claimed .cancelled) then
      some (if reported = .cancelled then (.cancelled, h.unpark t id) else (h.unpark t id).reservePass t)
    else none
  | none => none

@[simps]
def freeSlot : Heap :=
  { h with
    free := i :: h.free
    waiters := (h.waiters.wakeOne h.waits).1
    waits := (h.waiters.wakeOne h.waits).2 }

/-- A canceller ends the wait of a task. -/
def claim : Option Heap :=
  match h.parked t with
  | some (_, w) => if h.cancelled t then some (h.setWaits (h.waits.wake w .cancelled)) else none
  | none => none

/-- `TaskRef::cancel`'s store. -/
@[simps]
def cancel : Heap := { h with cancelled := update h.cancelled t true }

/-- `insert` with the mutex held. -/
@[simps]
def occupy : Heap :=
  { h with
    generations := update h.generations i (h.generations i + 1)
    live := update h.live i true }

/-- `release` with the mutex held, of a live slot. -/
@[simps]
def vacate : Heap := { h with live := update h.live i false }

/-- A heap whose slots are all free. -/
def new (capacity : ℕ) : Heap where
  free := List.range capacity
  generations := fun _ => 0
  live := fun _ => false
  waiters := .new
  waits := fun _ => none
  nextWait := 1
  parked := fun _ => none
  cancelled := fun _ => false

end Heap

/-! ## The state -/

/-- A slot's token, and its resource if there is one. -/
structure Slot where
  token : UInt64
  resource : Option ℕ
  deriving DecidableEq, Repr

/-- The host function a task is in. -/
inductive Op
  | none
  -- `reserve`
  | reserving
  -- `insert`, into the first of these reservations and then the others: about to take the mutex; with
  -- the slot live, about to store the resource; the token.
  | inserts (todo : List ℕ)
  | storing (i r : ℕ) (generation : UInt64) (todo : List ℕ)
  | stamping (i r : ℕ) (generation : UInt64) (todo : List ℕ)
  -- `roc_channel_new`: one slot is reserved; there was no other, so it is about to be given back.
  | channelNew (a : ℕ)
  | channelFull (a : ℕ)
  -- `roc_task_spawn`: counted as a live task; there was no slot for the handle, so the count is about to
  -- go down again; a slot is reserved; the task could not be started, so the count is about to go down;
  -- the slot is about to be given back.
  | spawnClaimed
  | spawnFull
  | spawnReserved (i : ℕ)
  | spawnFailed (i : ℕ)
  | spawnUndone (i : ℕ)
  deriving DecidableEq, Repr

/-- The reservations of a host function. -/
def Op.slots : Op → List ℕ
  | .inserts todo | .storing _ _ _ todo | .stamping _ _ _ todo => todo
  | .channelNew i | .channelFull i | .spawnReserved i | .spawnFailed i | .spawnUndone i => [i]
  | .none | .reserving | .spawnClaimed | .spawnFull => []

structure State where
  heap : Heap
  slots : ℕ → Slot
  ops : TaskId → Op
  -- By task: reservations that other functions of the host hold, and the releases under way, each with
  -- the resource that is still to be dropped.
  held : TaskId → List ℕ
  closing : TaskId → List (ℕ × Option ℕ)
  -- `LIVE_TASKS`
  liveTasks : ℕ
  running : ℕ
  owner : ℕ → Option ℕ
  -- History: slot and generation of every insert, the resources whose handles were released, and those
  -- that were dropped.
  issued : List (ℕ × UInt64)
  released : List ℕ
  dropped : List ℕ

namespace State

variable (s : State) (t : TaskId) (i : ℕ)

@[simps] def setHeap (h : Heap) : State := { s with heap := h }

@[simps] def setOp (o : Op) : State := { s with ops := update s.ops t o }

@[simps] def setHeld (l : List ℕ) : State := { s with held := update s.held t l }

@[simps] def setClosing (l : List (ℕ × Option ℕ)) : State :=
  { s with closing := update s.closing t l }

@[simps] def setLiveTasks (n : ℕ) : State := { s with liveTasks := n }

@[simps] def setSlot (x : Slot) : State := { s with slots := update s.slots i x }

/-- A task that called `reserve` has gone through the loop. -/
def reserved : Reserved × Heap → State
  | (.got i, h) => ((s.setHeap h).setHeld t (i :: s.held t)).setOp t .none
  | (.waiting, h) => s.setHeap h
  | (.cancelled, h) => (s.setHeap h).setOp t .none

/-- `insert`, up to where it releases the mutex. -/
@[simps] def occupy (todo : List ℕ) : State :=
  { s with
    heap := s.heap.occupy i
    ops := update s.ops t (.storing i s.issued.length (s.heap.generations i + 1) todo)
    issued := s.issued ++ [(i, s.heap.generations i + 1)] }

/-- `insert` stores the token and returns. -/
@[simps] def stamp (r : ℕ) (generation : UInt64) (todo : List ℕ) : State :=
  { s with
    slots := update s.slots i ⟨token generation i, (s.slots i).resource⟩
    ops := update s.ops t (if todo = [] then .none else .inserts todo)
    owner := update s.owner i (some r) }

/-- `release`, up to where it releases the mutex, of the handle of `r`. -/
@[simps] def vacate (r : ℕ) : State :=
  { s with
    heap := s.heap.vacate i
    closing := update s.closing t ((i, (s.slots i).resource) :: s.closing t)
    owner := update s.owner i none
    released := s.released ++ [r] }

/-- `get`, of a handle: the resource, or `Invalid`. -/
def get (x : Layout) (handle : ℕ) : Option ℕ :=
  match x.payloadIndex handle with
  | some i =>
    if s.heap.live i ∧ (s.slots i).token &&& indexMask = UInt64.ofNat i ∧
        (s.slots i).token >>> 16 = s.heap.generations i then (s.slots i).resource
    else none
  | none => none

end State

/-! ## The steps -/

inductive Label
  | cancel (t : TaskId)
  | claim (t : TaskId)
  | tryReserve (t : TaskId)
  | reserve (t : TaskId)
  | enter (t : TaskId)
  | relock (t : TaskId) (reported : Woke)
  | insert (t : TaskId) (i : ℕ)
  | drop (t : TaskId) (i : ℕ)
  | release (t : TaskId) (address : ℕ)
  | close (t : TaskId)
  | free (t : TaskId)
  | channelNew (t : TaskId)
  | taskSpawn (t : TaskId)
  | spawned (t : TaskId) (ok : Bool)
  | taskEnds
  | next (t : TaskId)
  deriving DecidableEq, Repr

/-- The next step of a host function. -/
def next (s : State) (t : TaskId) : Option State :=
  match s.ops t with
  | .inserts (i :: todo) => some (s.occupy t i todo)
  | .storing i r g todo =>
    some ((s.setSlot i ⟨(s.slots i).token, some r⟩).setOp t (.stamping i r g todo))
  | .stamping i r g todo => some (s.stamp t i r g todo)
  | .channelNew a =>
    match s.heap.tryReserve with
    | some (b, h) => some ((s.setHeap h).setOp t (.inserts [a, b]))
    | none => some (s.setOp t (.channelFull a))
  | .channelFull a => some ((s.setHeap (s.heap.freeSlot a)).setOp t .none)
  | .spawnClaimed =>
    match s.heap.tryReserve with
    | some (i, h) => some ((s.setHeap h).setOp t (.spawnReserved i))
    | none => some (s.setOp t .spawnFull)
  | .spawnFull => some ((s.setLiveTasks (s.liveTasks - 1)).setOp t .none)
  | .spawnFailed i => some ((s.setLiveTasks (s.liveTasks - 1)).setOp t (.spawnUndone i))
  | .spawnUndone i => some ((s.setHeap (s.heap.freeSlot i)).setOp t .none)
  | _ => none

section System

variable (x : Layout) (maxTasks : ℕ)

/-- What a task does outside of the host functions above, and in `reserve`. -/
def step (s : State) : Label → Option State
  | .cancel t => some (s.setHeap (s.heap.cancel t))
  | .claim t => (s.heap.claim t).map s.setHeap
  | .tryReserve t =>
    if s.ops t = .none then
      match s.heap.tryReserve with
      | some (i, h) => some ((s.setHeap h).setHeld t (i :: s.held t))
      | none => some s
    else none
  | .reserve t => if s.ops t = .none then some (s.setOp t .reserving) else none
  | .enter t =>
    if s.ops t = .reserving ∧ s.heap.parked t = none then some (s.reserved t (s.heap.reservePass t)) else none
  | .relock t reported => (s.heap.relock t reported).map (s.reserved t)
  | .insert t i =>
    if s.ops t = .none ∧ i ∈ s.held t then
      some ((s.setHeld t ((s.held t).erase i)).setOp t (.inserts [i]))
    else none
  | .drop t i =>
    if s.ops t = .none ∧ i ∈ s.held t then
      some ((s.setHeap (s.heap.freeSlot i)).setHeld t ((s.held t).erase i))
    else none
  | .release t address =>
    if s.ops t = .none then
      match x.baseIndex address with
      -- not a slot, so left to the allocator, or logged
      | none => some s
      | some i =>
        match s.owner i with
        | some r => some (if s.heap.live i then s.vacate t i r else s)
        | none => none
    else none
  | .close t =>
    match s.ops t, s.closing t with
    | .none, (i, some r) :: rest =>
      some { s.setClosing t ((i, none) :: rest) with dropped := s.dropped ++ [r] }
    | _, _ => none
  | .free t =>
    match s.ops t, s.closing t with
    | .none, (i, none) :: rest => some ((s.setHeap (s.heap.freeSlot i)).setClosing t rest)
    | _, _ => none
  | .channelNew t =>
    if s.ops t = .none then
      match s.heap.tryReserve with
      | some (a, h) => some ((s.setHeap h).setOp t (.channelNew a))
      | none => some s
    else none
  | .taskSpawn t =>
    if s.ops t = .none then
      if s.liveTasks < maxTasks then some ((s.setLiveTasks (s.liveTasks + 1)).setOp t .spawnClaimed)
      else some s
    else none
  | .spawned t ok =>
    match s.ops t with
    | .spawnReserved i =>
      if ok then some { s.setOp t (.inserts [i]) with running := s.running + 1 }
      else some (s.setOp t (.spawnFailed i))
    | _ => none
  | .taskEnds =>
    if 0 < s.running then some { s.setLiveTasks (s.liveTasks - 1) with running := s.running - 1 }
    else none
  | .next t => next s t

/-- `ResourceHeap::new`. -/
def initial : State where
  heap := .new x.capacity
  slots := fun _ => ⟨0, none⟩
  ops := fun _ => .none
  held := fun _ => []
  closing := fun _ => []
  liveTasks := 0
  running := 0
  owner := fun _ => none
  issued := []
  released := []
  dropped := []

def system : Transition.System State Label where
  init s := s = initial x
  step := step x maxTasks

end System

end RocNet.Resource
