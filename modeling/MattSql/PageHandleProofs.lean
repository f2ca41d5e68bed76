import MattSql.Library.LedgerProofs
import MattSql.Library.RunProofs
import MattSql.PlatformRuntimeProofs

/-! # Owners of page allocations

    `RuntimePageAllocationHandle` of `runtime/platform.cpp`: a move-only owner
    of the pages `AllocatePageSpan` got from a runtime.

    The runtime is the environment: every call carries what `AllocatePages` or
    `FreePages` answers in it, so both may fail at any time.  An allocation is
    metadata that is copied around, and an address may be handed out again
    after it was freed, so metadata alone does not tell two allocations apart.
    The model is therefore written over any `Marking` of allocations: the
    program runs with `Marking.plain` allocations, and the same definitions with
    `Marking.numbered` ones give every allocation a number of its own.  Forgetting the
    numbers gives back the program's run (`handleRun_plain`).

    Ownership is a ledger: what the handles hold, what was released and what
    was passed to `FreePages` is at every moment a permutation of what
    `AllocatePages` returned. -/

namespace MattSql

open Ledger

/-- How allocations are represented: the default-constructed one, the `n`-th
    one a runtime returned, and the metadata of each. -/
structure Marking (α : Type) where
  blank : α
  mark : Nat → RuntimePageAllocation → α
  metadata : α → RuntimePageAllocation

/-- Allocations as the program has them. -/
def Marking.plain : Marking RuntimePageAllocation :=
  { blank := {}, mark := fun _ allocation => allocation, metadata := id }

/-- Allocations with a number; the default-constructed one has none. -/
def Marking.numbered : Marking (RuntimePageAllocation × Option Nat) :=
  { blank := ({}, none), mark := fun n allocation => (allocation, some n), metadata := (·.1) }

/-- `RuntimePageAllocationHandle`; `runtime` names the runtime it points to. -/
structure RuntimePageAllocationHandle (α : Type) where
  runtime : Option Nat
  allocation : α

/-- The objects in the order of their construction, `none` after destruction,
    and what the runtimes and the callers saw: the allocations returned by
    `AllocatePages`, those returned by `Release`, and the calls of
    `FreePages`. -/
structure HandleWorld (α : Type) where
  handles : List (Option (RuntimePageAllocationHandle α)) := []
  allocated : List (Nat × α) := []
  released : List α := []
  freed : List (Nat × α) := []

/-- What a program does with handles; objects are named by their position.  A
    new object takes the next one. -/
inductive HandleCall where
  | construct
  /-- `AllocatePageSpan` on a runtime whose `AllocatePages` answers `reply`. -/
  | allocatePageSpan (runtime : Nat) (reply : Result (Option RuntimePageAllocation))
  | moveConstruct (source : Nat)
  | moveAssign (target source : Nat) (freeReply : Result Unit)
  | release (handle : Nat)
  | reset (handle : Nat) (freeReply : Result Unit)
  | destroy (handle : Nat) (freeReply : Result Unit)

inductive HandleReply (α : Type) where
  | done
  | status (reply : Result Unit)
  | allocation (allocation : α)

section Model

variable {α : Type} (marking : Marking α)

/-- A handle that owns nothing. -/
def Marking.empty : RuntimePageAllocationHandle α := ⟨none, marking.blank⟩

/-- `Reset`: its status, the calls of `FreePages` it makes, and the handle
    afterwards.  A failed `FreePages` empties the handle as well. -/
def RuntimePageAllocationHandle.reset (handle : RuntimePageAllocationHandle α)
    (freeReply : Result Unit) :
    Result Unit × List (Nat × α) × RuntimePageAllocationHandle α :=
  match handle.runtime with
  | none =>
    if (marking.metadata handle.allocation).data = 0 then (.ok (), [], handle)
    else
      (errorResult .internal (ascii "runtime page allocation has no owning runtime"), [],
        ⟨none, marking.blank⟩)
  | some runtime => (freeReply, [(runtime, handle.allocation)], ⟨none, marking.blank⟩)

/-- `Reset` of the object at a position. -/
def HandleWorld.resetAt (world : HandleWorld α) (position : Nat)
    (handle : RuntimePageAllocationHandle α) (freeReply : Result Unit) :
    Result Unit × HandleWorld α :=
  ((handle.reset marking freeReply).1,
    { world with
      handles := world.handles.set position (some (handle.reset marking freeReply).2.2)
      freed := world.freed ++ (handle.reset marking freeReply).2.1 })

/-- The object at a position, if it is alive. -/
def HandleWorld.object (world : HandleWorld α) (position : Nat) :
    Option (RuntimePageAllocationHandle α) :=
  world.handles[position]?.join

/-- One step of the program.  A step on an object that is not alive is no step
    of a program and leaves everything as it is. -/
def handleStep (world : HandleWorld α) : HandleCall → HandleReply α × HandleWorld α
  | .construct => (.done, { world with handles := world.handles ++ [some marking.empty] })
  | .allocatePageSpan runtime reply =>
    match reply with
    | .error st => (.status (.error st), world)
    | .ok none =>
      (.status (errorResult .internal
        (ascii "runtime returned success without a page allocation")), world)
    | .ok (some allocation) =>
      let marked := marking.mark world.allocated.length allocation
      (.status (.ok ()),
        { world with
          handles := world.handles ++ [some ⟨some runtime, marked⟩]
          allocated := world.allocated ++ [(runtime, marked)] })
  | .moveConstruct source =>
    match world.object source with
    | none => (.done, world)
    | some other =>
      let this : RuntimePageAllocationHandle α := ⟨other.runtime, other.allocation⟩
      (.done,
        { world with
          handles := (world.handles ++ [some this]).set source (some ⟨none, marking.blank⟩) })
  | .moveAssign target source freeReply =>
    match world.object target, world.object source with
    | some this, some other =>
      if target = source then (.done, world)
      else
        let world := (world.resetAt marking target this freeReply).2
        (.done,
          { world with
            handles := (world.handles.set target (some ⟨other.runtime, other.allocation⟩)).set
              source (some ⟨none, marking.blank⟩) })
    | _, _ => (.done, world)
  | .release position =>
    match world.object position with
    | none => (.done, world)
    | some this =>
      (.allocation this.allocation,
        { world with
          handles := world.handles.set position (some ⟨none, marking.blank⟩)
          released := world.released ++ [this.allocation] })
  | .reset position freeReply =>
    match world.object position with
    | none => (.done, world)
    | some this =>
      (.status (world.resetAt marking position this freeReply).1,
        (world.resetAt marking position this freeReply).2)
  | .destroy position freeReply =>
    match world.object position with
    | none => (.done, world)
    | some this =>
      let world := (world.resetAt marking position this freeReply).2
      (.done, { world with handles := world.handles.set position none })

variable {marking}

theorem RuntimePageAllocationHandle.reset_null {handle : RuntimePageAllocationHandle α}
    (hruntime : handle.runtime = none) (hnull : (marking.metadata handle.allocation).data = 0)
    (freeReply : Result Unit) : handle.reset marking freeReply = (.ok (), [], handle) := by
  rw [RuntimePageAllocationHandle.reset]
  rw [hruntime]
  exact if_pos hnull

theorem RuntimePageAllocationHandle.reset_orphan {handle : RuntimePageAllocationHandle α}
    (hruntime : handle.runtime = none) (hdata : (marking.metadata handle.allocation).data ≠ 0)
    (freeReply : Result Unit) :
    handle.reset marking freeReply
      = (errorResult .internal (ascii "runtime page allocation has no owning runtime"), [],
          marking.empty) := by
  rw [RuntimePageAllocationHandle.reset]
  rw [hruntime]
  exact if_neg hdata

theorem RuntimePageAllocationHandle.reset_owner {handle : RuntimePageAllocationHandle α}
    {runtime : Nat} (hruntime : handle.runtime = some runtime) (freeReply : Result Unit) :
    handle.reset marking freeReply
      = (freeReply, [(runtime, handle.allocation)], marking.empty) := by
  rw [RuntimePageAllocationHandle.reset]
  rw [hruntime]
  rfl

end Model

/-! ## What the records hold -/

/-- The allocation that a call gets from its runtime. -/
def HandleCall.granted : HandleCall → Option (Nat × RuntimePageAllocation)
  | .allocatePageSpan runtime (.ok (some allocation)) => some (runtime, allocation)
  | _ => none

/-- The allocation that a reply hands to the caller. -/
def HandleReply.returned {α : Type} : HandleReply α → Option α
  | .allocation handed => some handed
  | _ => none

/-- One step records the allocation its call gets and the one its reply
    returns, and no other. -/
theorem handleStep_records (world : HandleWorld RuntimePageAllocation) (call : HandleCall) :
    (handleStep Marking.plain world call).2.allocated = world.allocated ++ call.granted.toList
      ∧ (handleStep Marking.plain world call).2.released
        = world.released ++ (handleStep Marking.plain world call).1.returned.toList := by
  have hnothing : world.allocated = world.allocated ++ []
      ∧ world.released = world.released ++ [] :=
    ⟨(List.append_nil _).symm, (List.append_nil _).symm⟩
  cases call with
  | construct => exact hnothing
  | allocatePageSpan runtime reply =>
      cases reply with
      | error st => exact hnothing
      | ok value =>
          cases value with
          | none => exact hnothing
          | some allocation => exact ⟨rfl, hnothing.2⟩
  | moveConstruct source =>
      rw [handleStep]
      cases world.object source <;> exact hnothing
  | moveAssign target source freeReply =>
      rw [handleStep]
      cases world.object target with
      | none => exact hnothing
      | some this =>
          cases world.object source with
          | none => exact hnothing
          | some other =>
              dsimp only
              by_cases hsame : target = source
              · rw [if_pos hsame]
                exact hnothing
              · rw [if_neg hsame]
                exact hnothing
  | release position =>
      rw [handleStep]
      cases world.object position with
      | none => exact hnothing
      | some this => exact ⟨hnothing.1, rfl⟩
  | reset position freeReply =>
      rw [handleStep]
      cases world.object position <;> exact hnothing
  | destroy position freeReply =>
      rw [handleStep]
      cases world.object position <;> exact hnothing

/-- **THE RECORDS ARE COMPLETE**: after any steps, what is recorded as allocated
    is what the successful calls of `AllocatePages` answered, in their order, and
    what is recorded as released is what `Release` returned. -/
theorem handleRun_records (calls : List HandleCall) :
    (Run.final (handleStep Marking.plain) {} calls).allocated = calls.filterMap HandleCall.granted
      ∧ (Run.final (handleStep Marking.plain) {} calls).released
        = (Run.trace (handleStep Marking.plain) {} calls).filterMap (fun entry =>
          entry.2.returned) := by
  have hallocated := @Run.final_log _ _ _ _ (handleStep Marking.plain) (·.allocated)
    (fun entry => entry.1.granted) (fun world call => (handleStep_records world call).1) calls {}
  have hreleased := @Run.final_log _ _ _ _ (handleStep Marking.plain) (·.released)
    (fun entry => entry.2.returned) (fun world call => (handleStep_records world call).2) calls {}
  refine ⟨?_, hreleased⟩
  have hcalls := List.filterMap_map
    (f := fun entry : HandleCall × HandleReply RuntimePageAllocation => entry.1)
    (g := HandleCall.granted) (l := Run.trace (handleStep Marking.plain) {} calls)
  rw [Run.trace_calls] at hcalls
  rw [hallocated, hcalls]
  rfl

/-! ## Forgetting the numbers -/

/-- An allocation with its number. -/
abbrev NumberedAllocation := RuntimePageAllocation × Option Nat

def RuntimePageAllocationHandle.forget (handle : RuntimePageAllocationHandle NumberedAllocation) :
    RuntimePageAllocationHandle RuntimePageAllocation :=
  ⟨handle.runtime, handle.allocation.1⟩

/-- A call of `FreePages`, or an allocation of a runtime, without its number. -/
def forgetEntry (entry : Nat × NumberedAllocation) : Nat × RuntimePageAllocation :=
  (entry.1, entry.2.1)

def HandleWorld.forget (world : HandleWorld NumberedAllocation) :
    HandleWorld RuntimePageAllocation :=
  { handles := world.handles.map (Option.map RuntimePageAllocationHandle.forget)
    allocated := world.allocated.map forgetEntry
    released := world.released.map (·.1)
    freed := world.freed.map forgetEntry }

def HandleReply.forget : HandleReply NumberedAllocation → HandleReply RuntimePageAllocation
  | .done => .done
  | .status reply => .status reply
  | .allocation returned => .allocation returned.1

theorem HandleWorld.object_forget (world : HandleWorld NumberedAllocation) (position : Nat) :
    world.forget.object position
      = (world.object position).map RuntimePageAllocationHandle.forget := by
  unfold HandleWorld.object HandleWorld.forget
  rw [List.getElem?_map]
  cases world.handles[position]? with
  | none => rfl
  | some slot => cases slot <;> rfl

theorem RuntimePageAllocationHandle.reset_forget
    (handle : RuntimePageAllocationHandle NumberedAllocation) (freeReply : Result Unit) :
    handle.forget.reset Marking.plain freeReply
      = ((handle.reset Marking.numbered freeReply).1,
        (handle.reset Marking.numbered freeReply).2.1.map forgetEntry,
        (handle.reset Marking.numbered freeReply).2.2.forget) := by
  cases hruntime : handle.runtime with
  | some r =>
      have hforget : handle.forget.runtime = some r := hruntime
      rw [RuntimePageAllocationHandle.reset_owner hruntime,
        RuntimePageAllocationHandle.reset_owner hforget]
      rfl
  | none =>
      have hforget : handle.forget.runtime = none := hruntime
      by_cases hnull : handle.allocation.1.data = 0
      · rw [@RuntimePageAllocationHandle.reset_null _ Marking.numbered _ hruntime hnull,
          @RuntimePageAllocationHandle.reset_null _ Marking.plain _ hforget hnull]
        rfl
      · rw [@RuntimePageAllocationHandle.reset_orphan _ Marking.numbered _ hruntime hnull,
          @RuntimePageAllocationHandle.reset_orphan _ Marking.plain _ hforget hnull]
        rfl

theorem HandleWorld.resetAt_forget (world : HandleWorld NumberedAllocation) (position : Nat)
    (handle : RuntimePageAllocationHandle NumberedAllocation) (freeReply : Result Unit) :
    world.forget.resetAt Marking.plain position handle.forget freeReply
      = ((world.resetAt Marking.numbered position handle freeReply).1,
        (world.resetAt Marking.numbered position handle freeReply).2.forget) := by
  unfold HandleWorld.resetAt
  rw [handle.reset_forget]
  simp only [HandleWorld.forget, List.map_set, List.map_append, Option.map_some]

/-- One step, with and without the numbers. -/
theorem handleStep_forget (world : HandleWorld NumberedAllocation) (call : HandleCall) :
    ((handleStep Marking.numbered world call).1.forget,
        (handleStep Marking.numbered world call).2.forget)
      = handleStep Marking.plain world.forget call := by
  cases call with
  | construct =>
      simp only [handleStep, HandleWorld.forget, List.map_append]
      rfl
  | allocatePageSpan runtime reply =>
      cases reply with
      | error st => rfl
      | ok value =>
          cases value with
          | none => rfl
          | some allocation =>
              simp only [handleStep, HandleWorld.forget, List.map_append]
              rfl
  | moveConstruct source =>
      simp only [handleStep, HandleWorld.object_forget]
      cases world.object source with
      | none => rfl
      | some other =>
          simp only [Option.map_some, HandleWorld.forget, List.map_set, List.map_append]
          rfl
  | moveAssign target source freeReply =>
      simp only [handleStep, HandleWorld.object_forget]
      cases world.object target with
      | none => rfl
      | some this =>
          cases world.object source with
          | none => rfl
          | some other =>
              simp only [Option.map_some]
              by_cases hsame : target = source
              · rw [if_pos hsame, if_pos hsame]
                rfl
              · rw [if_neg hsame, if_neg hsame, HandleWorld.resetAt_forget]
                simp only [HandleWorld.forget, List.map_set]
                rfl
  | release position =>
      simp only [handleStep, HandleWorld.object_forget]
      cases world.object position with
      | none => rfl
      | some this =>
          simp only [Option.map_some, HandleWorld.forget, List.map_set, List.map_append]
          rfl
  | reset position freeReply =>
      simp only [handleStep, HandleWorld.object_forget]
      cases world.object position with
      | none => rfl
      | some this =>
          simp only [Option.map_some, HandleWorld.resetAt_forget]
          rfl
  | destroy position freeReply =>
      simp only [handleStep, HandleWorld.object_forget]
      cases world.object position with
      | none => rfl
      | some this =>
          simp only [Option.map_some, HandleWorld.resetAt_forget]
          simp only [HandleWorld.forget, List.map_set]
          rfl

/-- The program's run is the numbered run without the numbers: its replies and
    its state. -/
theorem handleRun_plain (calls : List HandleCall) :
    (Run.trace (handleStep Marking.numbered) {} calls).map (fun entry => (entry.1, entry.2.forget))
        = Run.trace (handleStep Marking.plain) {} calls
      ∧ (Run.final (handleStep Marking.numbered) {} calls).forget
        = Run.final (handleStep Marking.plain) {} calls := by
  refine @Run.trace_simulates (HandleWorld NumberedAllocation) HandleCall _ _ _ _ _ _
    (fun s r => s.forget = r) (fun _ => True) ?_ calls {} {} (fun _ => trivial) rfl
  rintro s r call - rfl
  rw [← handleStep_forget]
  exact ⟨rfl, rfl⟩

/-! ## The ledger -/

/-- The number of the allocation a slot holds. -/
def heldNumber (slot : Option (RuntimePageAllocationHandle NumberedAllocation)) : Option Nat :=
  slot.bind fun handle => handle.allocation.2

/-- The numbers passed to `FreePages`. -/
def HandleWorld.freedNumbers (world : HandleWorld NumberedAllocation) : List Nat :=
  world.freed.filterMap (·.2.2)

/-- The numbers that `Release` returned. -/
def HandleWorld.releasedNumbers (world : HandleWorld NumberedAllocation) : List Nat :=
  world.released.filterMap (·.2)

/-- The handles there can be: empty, or the owner of an allocation with the
    runtime it came from. -/
inductive GenuineHandle (allocated : List (Nat × NumberedAllocation)) :
    RuntimePageAllocationHandle NumberedAllocation → Prop
  | empty : GenuineHandle allocated Marking.numbered.empty
  | owner {runtime : Nat} {allocation : NumberedAllocation}
      (mem : (runtime, allocation) ∈ allocated) :
      GenuineHandle allocated ⟨some runtime, allocation⟩

/-- What every step keeps.  The last field is the law of conservation. -/
structure HandleWorld.Kept (world : HandleWorld NumberedAllocation) : Prop where
  genuine : ∀ handle, some handle ∈ world.handles → GenuineHandle world.allocated handle
  freed_mem : ∀ entry ∈ world.freed, entry ∈ world.allocated
  released_mem : ∀ allocation ∈ world.released,
    allocation = Marking.numbered.blank ∨ ∃ runtime, (runtime, allocation) ∈ world.allocated
  numbers : ∀ (k : Nat) (entry : Nat × NumberedAllocation),
    world.allocated[k]? = some entry → entry.2.2 = some k
  ledger : (tokens heldNumber world.handles ++ world.releasedNumbers ++ world.freedNumbers).Perm
    (List.range world.allocated.length)

variable {world : HandleWorld NumberedAllocation}

theorem HandleWorld.object_eq_some {position : Nat}
    {handle : RuntimePageAllocationHandle NumberedAllocation} :
    world.object position = some handle ↔ world.handles[position]? = some (some handle) := by
  rw [HandleWorld.object]
  exact Option.join_eq_some_iff

/-- The calls of `FreePages` that empty a handle. -/
def RuntimePageAllocationHandle.owned
    (handle : RuntimePageAllocationHandle NumberedAllocation) : List (Nat × NumberedAllocation) :=
  handle.runtime.toList.map fun runtime => (runtime, handle.allocation)

/-- `Reset` of a genuine handle empties it and frees what it owns. -/
theorem GenuineHandle.reset_eq {allocated : List (Nat × NumberedAllocation)}
    {handle : RuntimePageAllocationHandle NumberedAllocation} (h : GenuineHandle allocated handle)
    (freeReply : Result Unit) :
    (handle.reset Marking.numbered freeReply).2 = (handle.owned, Marking.numbered.empty) := by
  cases h with
  | empty => rw [RuntimePageAllocationHandle.reset_null rfl rfl]; rfl
  | owner mem => rw [RuntimePageAllocationHandle.reset_owner rfl]; rfl

/-- What `Reset` frees is what the slot held. -/
theorem GenuineHandle.owned_numbers {allocated : List (Nat × NumberedAllocation)}
    {handle : RuntimePageAllocationHandle NumberedAllocation}
    (h : GenuineHandle allocated handle) :
    handle.owned.filterMap (·.2.2) = (heldNumber (some handle)).toList
      ∧ ∀ entry ∈ handle.owned, entry ∈ allocated := by
  cases h with
  | empty => exact ⟨rfl, fun _ hmem => absurd hmem List.not_mem_nil⟩
  | @owner runtime allocation mem =>
      refine ⟨?_, List.forall_mem_singleton.mpr mem⟩
      exact @tokens_singleton _ _ (fun entry : Nat × NumberedAllocation => entry.2.2)
        (runtime, allocation)

theorem GenuineHandle.mono {allocated more : List (Nat × NumberedAllocation)}
    {handle : RuntimePageAllocationHandle NumberedAllocation}
    (h : GenuineHandle allocated handle) : GenuineHandle (allocated ++ more) handle := by
  cases h with
  | empty => exact .empty
  | owner mem => exact .owner (List.mem_append_left more mem)

/-- **SETTLING**: a slot is emptied, and what it held is released or freed. -/
theorem HandleWorld.Kept.settle (h : world.Kept) {position : Nat}
    {handle : RuntimePageAllocationHandle NumberedAllocation}
    (hget : world.handles[position]? = some (some handle))
    {slot : Option (RuntimePageAllocationHandle NumberedAllocation)}
    (hslot : slot = none ∨ slot = some Marking.numbered.empty) {released : List NumberedAllocation}
    {freed : List (Nat × NumberedAllocation)}
    (hnumbers : released.filterMap (·.2) ++ freed.filterMap (·.2.2)
      = (heldNumber (some handle)).toList)
    (hreleased : ∀ allocation ∈ released,
      allocation = Marking.numbered.blank ∨ ∃ runtime, (runtime, allocation) ∈ world.allocated)
    (hfreed : ∀ entry ∈ freed, entry ∈ world.allocated) :
    HandleWorld.Kept
      { world with
        handles := world.handles.set position slot
        released := world.released ++ released
        freed := world.freed ++ freed } := by
  refine ⟨?_, ?_, ?_, h.numbers, ?_⟩
  · intro other hmem
    rcases List.mem_or_eq_of_mem_set hmem with hmem | heq
    · exact h.genuine other hmem
    · rcases hslot with rfl | rfl
      · cases heq
      · cases heq
        exact .empty
  · intro entry hmem
    rcases List.mem_append.mp hmem with hmem | hmem
    · exact h.freed_mem entry hmem
    · exact hfreed entry hmem
  · intro allocation hmem
    rcases List.mem_append.mp hmem with hmem | hmem
    · exact h.released_mem allocation hmem
    · exact hreleased allocation hmem
  · have hset := @tokens_set _ _ heldNumber _ _ _ hget slot
    have hempty : (heldNumber slot).toList = [] := by
      rcases hslot with rfl | rfl <;> rfl
    rw [hempty, List.nil_append, ← hnumbers] at hset
    have hledger := h.ledger
    rw [List.perm_iff_count] at hset hledger ⊢
    intro k
    have h1 := hset k
    have h2 := hledger k
    simp only [HandleWorld.releasedNumbers, HandleWorld.freedNumbers, List.filterMap_append,
      List.count_append] at h1 h2 ⊢
    omega

/-- **MOVING**: another slot took over what the source held, and the source is
    emptied. -/
theorem HandleWorld.Kept.move (h : world.Kept)
    {handles : List (Option (RuntimePageAllocationHandle NumberedAllocation))} {source : Nat}
    {other : RuntimePageAllocationHandle NumberedAllocation}
    (hget : handles[source]? = some (some other))
    (hgenuine : ∀ handle, some handle ∈ handles → GenuineHandle world.allocated handle)
    (htokens : (tokens heldNumber handles).Perm
      ((heldNumber (some other)).toList ++ tokens heldNumber world.handles)) :
    HandleWorld.Kept { world with handles := handles.set source (some Marking.numbered.empty) } := by
  refine ⟨?_, h.freed_mem, h.released_mem, h.numbers, ?_⟩
  · intro handle hmem
    rcases List.mem_or_eq_of_mem_set hmem with hmem | heq
    · exact hgenuine handle hmem
    · cases heq
      exact .empty
  · have hset := (@tokens_set _ _ heldNumber _ _ _ hget (some Marking.numbered.empty)).trans htokens
    have hsame := (List.perm_append_left_iff _).mp hset
    exact ((hsame.append_right _).append_right _).trans h.ledger

/-- `Reset` of a live object. -/
theorem HandleWorld.Kept.resetAt_eq (h : world.Kept) {position : Nat}
    {handle : RuntimePageAllocationHandle NumberedAllocation}
    (hget : world.handles[position]? = some (some handle)) (freeReply : Result Unit) :
    (world.resetAt Marking.numbered position handle freeReply).2
      = { world with
          handles := world.handles.set position (some Marking.numbered.empty)
          freed := world.freed ++ handle.owned } := by
  have hgen := h.genuine handle (List.mem_of_getElem? hget)
  rw [HandleWorld.resetAt]
  rw [hgen.reset_eq]

/-- The world with a slot emptied by `Reset`, and destroyed or not. -/
theorem HandleWorld.Kept.settle_freed (h : world.Kept) {position : Nat}
    {handle : RuntimePageAllocationHandle NumberedAllocation}
    (hget : world.handles[position]? = some (some handle))
    {slot : Option (RuntimePageAllocationHandle NumberedAllocation)}
    (hslot : slot = none ∨ slot = some Marking.numbered.empty) :
    HandleWorld.Kept
      { world with
        handles := world.handles.set position slot
        freed := world.freed ++ handle.owned } := by
  obtain ⟨hnumbers, hmem⟩ := (h.genuine handle (List.mem_of_getElem? hget)).owned_numbers
  have hnone : ([] : List NumberedAllocation).filterMap (·.2) ++ handle.owned.filterMap (·.2.2)
      = (heldNumber (some handle)).toList := hnumbers
  have hkept := h.settle hget hslot hnone (fun _ hnil => absurd hnil List.not_mem_nil) hmem
  rw [List.append_nil] at hkept
  exact hkept

/-- An empty handle is constructed. -/
theorem HandleWorld.Kept.constructed (h : world.Kept) :
    HandleWorld.Kept
      { world with handles := world.handles ++ [some Marking.numbered.empty] } := by
  refine ⟨?_, h.freed_mem, h.released_mem, h.numbers, ?_⟩
  · intro handle hmem
    rcases List.mem_append.mp hmem with hmem | hmem
    · exact h.genuine handle hmem
    · cases List.mem_singleton.mp hmem
      exact .empty
  · show (tokens heldNumber (world.handles ++ [some Marking.numbered.empty]) ++ _ ++ _).Perm _
    rw [tokens_append, tokens_singleton]
    show (tokens heldNumber world.handles ++ [] ++ _ ++ _).Perm _
    rw [List.append_nil]
    exact h.ledger

/-- **ALLOCATING**: the next number enters the ledger with the handle that holds
    it. -/
theorem HandleWorld.Kept.allocate (h : world.Kept) (runtime : Nat)
    (allocation : RuntimePageAllocation) :
    HandleWorld.Kept
      { world with
        handles := world.handles
          ++ [some ⟨some runtime, allocation, some world.allocated.length⟩]
        allocated := world.allocated
          ++ [(runtime, allocation, some world.allocated.length)] } := by
  refine ⟨?_, ?_, ?_, ?_, ?_⟩
  · intro handle hmem
    rcases List.mem_append.mp hmem with hmem | hmem
    · exact (h.genuine handle hmem).mono
    · cases List.mem_singleton.mp hmem
      exact .owner (List.mem_append_right _ List.mem_cons_self)
  · intro entry hmem
    exact List.mem_append_left _ (h.freed_mem entry hmem)
  · intro returned hmem
    rcases h.released_mem returned hmem with hblank | ⟨r, hr⟩
    · exact Or.inl hblank
    · exact Or.inr ⟨r, List.mem_append_left _ hr⟩
  · intro k entry hget
    rw [List.getElem?_append] at hget
    split at hget
    · exact h.numbers k entry hget
    · rename_i hk
      -- the one entry behind the old ones is the new allocation
      rw [List.getElem?_singleton] at hget
      split at hget
      · cases hget
        show some world.allocated.length = some k
        rw [Option.some.injEq]
        omega
      · cases hget
  · have hledger := h.ledger
    show (tokens heldNumber (world.handles ++ [some _]) ++ _ ++ _).Perm
      (List.range (world.allocated ++ [_]).length)
    rw [tokens_append, tokens_singleton, List.length_append, List.length_singleton,
      List.range_succ]
    show (tokens heldNumber world.handles ++ [world.allocated.length]
      ++ world.releasedNumbers ++ world.freedNumbers).Perm _
    rw [List.perm_iff_count] at hledger ⊢
    intro k
    have hk := hledger k
    simp only [List.count_append] at hk ⊢
    omega

/-- The move constructor. -/
theorem HandleWorld.Kept.moveConstructed (h : world.Kept) {source : Nat}
    {other : RuntimePageAllocationHandle NumberedAllocation}
    (hget : world.handles[source]? = some (some other)) :
    HandleWorld.Kept
      { world with
        handles := (world.handles ++ [some other]).set source
          (some Marking.numbered.empty) } := by
  have hlt := (List.getElem?_eq_some_iff.mp hget).1
  refine @HandleWorld.Kept.move world h _ source other ?_ ?_ ?_
  · rw [List.getElem?_append_left hlt, hget]
  · intro handle hmem
    rcases List.mem_append.mp hmem with hmem | hmem
    · exact h.genuine handle hmem
    · cases List.mem_singleton.mp hmem
      exact h.genuine other (List.mem_of_getElem? hget)
  · rw [tokens_append, tokens_singleton]
    exact List.perm_append_comm

/-- Move assignment onto another object: what it held is freed first. -/
theorem HandleWorld.Kept.moveAssigned (h : world.Kept) {target source : Nat}
    {this other : RuntimePageAllocationHandle NumberedAllocation}
    (hthis : world.handles[target]? = some (some this))
    (hother : world.handles[source]? = some (some other)) (hne : target ≠ source) :
    HandleWorld.Kept
      { world with
        handles := ((world.handles.set target (some Marking.numbered.empty)).set target
          (some other)).set source (some Marking.numbered.empty)
        freed := world.freed ++ this.owned } := by
  have hlt := (List.getElem?_eq_some_iff.mp hthis).1
  have hempty : (world.handles.set target (some Marking.numbered.empty))[target]?
      = some (some Marking.numbered.empty) := List.getElem?_set_self hlt
  have hkept := h.settle_freed hthis (Or.inr rfl)
  refine @HandleWorld.Kept.move _ hkept _ source other ?_ ?_ ?_
  · rw [List.getElem?_set_ne hne, List.getElem?_set_ne hne, hother]
  · intro handle hmem
    rcases List.mem_or_eq_of_mem_set hmem with hmem | heq
    · exact hkept.genuine handle hmem
    · cases heq
      exact h.genuine other (List.mem_of_getElem? hother)
  · exact @tokens_set _ _ heldNumber _ _ _ hempty (some other)

/-- `Release`: the caller has what the handle held. -/
theorem HandleWorld.Kept.settle_released (h : world.Kept) {position : Nat}
    {handle : RuntimePageAllocationHandle NumberedAllocation}
    (hget : world.handles[position]? = some (some handle)) :
    HandleWorld.Kept
      { world with
        handles := world.handles.set position (some Marking.numbered.empty)
        released := world.released ++ [handle.allocation] } := by
  have hnumber : [handle.allocation].filterMap (·.2)
      ++ ([] : List (Nat × NumberedAllocation)).filterMap (·.2.2)
      = (heldNumber (some handle)).toList := by
    rw [List.filterMap_nil, List.append_nil]
    exact @tokens_singleton _ _ (fun a : NumberedAllocation => a.2) handle.allocation
  have hreturned : handle.allocation = Marking.numbered.blank
      ∨ ∃ runtime, (runtime, handle.allocation) ∈ world.allocated := by
    cases h.genuine handle (List.mem_of_getElem? hget) with
    | empty => exact Or.inl rfl
    | owner mem => exact Or.inr ⟨_, mem⟩
  have hkept := h.settle hget (Or.inr rfl) hnumber (List.forall_mem_singleton.mpr hreturned)
    (fun _ hnil => absurd hnil List.not_mem_nil)
  rw [List.append_nil] at hkept
  exact hkept

/-- **ONE STEP** keeps the ledger. -/
theorem handleStep_kept (world : HandleWorld NumberedAllocation) (call : HandleCall)
    (h : world.Kept) : (handleStep Marking.numbered world call).2.Kept := by
  cases call with
  | construct => exact h.constructed
  | allocatePageSpan runtime reply =>
      cases reply with
      | error st => exact h
      | ok value =>
          cases value with
          | none => exact h
          | some allocation => exact h.allocate runtime allocation
  | moveConstruct source =>
      rw [handleStep]
      cases hsource : world.object source with
      | none => exact h
      | some other => exact h.moveConstructed (HandleWorld.object_eq_some.mp hsource)
  | moveAssign target source freeReply =>
      rw [handleStep]
      cases htarget : world.object target with
      | none => exact h
      | some this =>
          cases hsource : world.object source with
          | none => exact h
          | some other =>
              have hthis := HandleWorld.object_eq_some.mp htarget
              have hother := HandleWorld.object_eq_some.mp hsource
              dsimp only
              by_cases hsame : target = source
              · -- `this == &other`: nothing happens
                rw [if_pos hsame]
                exact h
              · rw [if_neg hsame, h.resetAt_eq hthis]
                exact h.moveAssigned hthis hother hsame
  | release position =>
      rw [handleStep]
      cases hobject : world.object position with
      | none => exact h
      | some this => exact h.settle_released (HandleWorld.object_eq_some.mp hobject)
  | reset position freeReply =>
      rw [handleStep]
      cases hobject : world.object position with
      | none => exact h
      | some this =>
          have hget := HandleWorld.object_eq_some.mp hobject
          show (world.resetAt Marking.numbered position this freeReply).2.Kept
          rw [h.resetAt_eq hget]
          exact h.settle_freed hget (Or.inr rfl)
  | destroy position freeReply =>
      rw [handleStep]
      cases hobject : world.object position with
      | none => exact h
      | some this =>
          have hget := HandleWorld.object_eq_some.mp hobject
          dsimp only
          rw [h.resetAt_eq hget]
          dsimp only
          rw [List.set_set]
          exact h.settle_freed hget (Or.inl rfl)

/-! ## Linear ownership -/

/-- What the ledger means for the owners and the runtimes, at one moment. -/
structure HandleWorld.Linear (world : HandleWorld NumberedAllocation) : Prop where
  /-- The `k`-th allocation is the one with number `k`. -/
  numbers : ∀ (k : Nat) (entry : Nat × NumberedAllocation),
    world.allocated[k]? = some entry → entry.2.2 = some k
  /-- No allocation has two owners. -/
  one_owner : ∀ i j this that k, world.object i = some this → world.object j = some that →
    this.allocation.2 = some k → that.allocation.2 = some k → i = j
  /-- An owner has the metadata the runtime returned, and that runtime. -/
  owner_genuine : ∀ i this k, world.object i = some this → this.allocation.2 = some k →
    ∃ runtime, this.runtime = some runtime ∧ (runtime, this.allocation) ∈ world.allocated
  /-- `FreePages` is called on the runtime the allocation came from, with the
      metadata it returned. -/
  freed_as_allocated : ∀ entry ∈ world.freed, entry ∈ world.allocated
  freed_once : world.freedNumbers.Nodup
  released_once : world.releasedNumbers.Nodup
  /-- Nothing is both released and freed. -/
  freed_not_released : ∀ k ∈ world.freedNumbers, k ∉ world.releasedNumbers
  /-- What has an owner is neither released nor freed. -/
  owned_not_settled : ∀ i this k, world.object i = some this → this.allocation.2 = some k →
    k ∉ world.releasedNumbers ∧ k ∉ world.freedNumbers
  /-- Once no object is alive, every allocation was released or freed. -/
  settled : (∀ i, world.object i = none) → ∀ k < world.allocated.length,
    k ∈ world.releasedNumbers ∨ k ∈ world.freedNumbers

theorem HandleWorld.Kept.linear (h : world.Kept) : world.Linear := by
  have hnodup := (h.ledger.nodup_iff).mpr List.nodup_range
  rw [List.nodup_append, List.nodup_append] at hnodup
  obtain ⟨⟨hheld, hreleased, happart⟩, hfreed, hsettled⟩ := hnodup
  have hmem : ∀ i this k, world.object i = some this → this.allocation.2 = some k →
      k ∈ tokens heldNumber world.handles := by
    intro i this k hobject hk
    exact mem_tokens.mpr ⟨some this,
      List.mem_of_getElem? (HandleWorld.object_eq_some.mp hobject), hk⟩
  refine ⟨h.numbers, ?_, ?_, h.freed_mem, hfreed, hreleased, ?_, ?_, ?_⟩
  · intro i j this that k hi hj hthis hthat
    exact slot_unique hheld (HandleWorld.object_eq_some.mp hi) (HandleWorld.object_eq_some.mp hj)
      hthis hthat
  · intro i this k hobject hk
    cases h.genuine this (List.mem_of_getElem? (HandleWorld.object_eq_some.mp hobject)) with
    | empty => cases hk
    | owner mem => exact ⟨_, rfl, mem⟩
  · intro k hk hk'
    exact hsettled k (List.mem_append_right _ hk') k hk rfl
  · intro i this k hobject hk
    have hheldk := hmem i this k hobject hk
    exact ⟨fun hk' => happart k hheldk k hk' rfl,
      fun hk' => hsettled k (List.mem_append_left _ hheldk) k hk' rfl⟩
  · intro hdead k hk
    have hnone : tokens heldNumber world.handles = [] := by
      rw [List.eq_nil_iff_forall_not_mem]
      intro n hn
      obtain ⟨slot, hslot, hheld⟩ := mem_tokens.mp hn
      obtain ⟨this, rfl, -⟩ := Option.bind_eq_some_iff.mp hheld
      obtain ⟨i, hi⟩ := List.getElem?_of_mem hslot
      have hobject := HandleWorld.object_eq_some.mpr hi
      rw [hdead i] at hobject
      cases hobject
    have hin := (h.ledger.mem_iff).mpr (List.mem_range.mpr hk)
    rw [hnone, List.nil_append] at hin
    exact List.mem_append.mp hin

/-- **OWNERSHIP IS LINEAR**: after any steps on any number of handles, with
    `AllocatePages` and `FreePages` answering as they like, every allocation has
    at most one owner, was passed to `FreePages` at most once, as it was
    returned and never when it was released, and is released or freed once no
    handle is left.  The numbers that tell allocations apart are not the
    program's: without them the run is the program's own, whose record of
    allocations is what the runtimes answered (`handleRun_records`). -/
theorem pageHandles_linear (calls : List HandleCall) :
    (Run.final (handleStep Marking.numbered) {} calls).Linear
      ∧ (Run.final (handleStep Marking.numbered) {} calls).forget
        = Run.final (handleStep Marking.plain) {} calls
      ∧ (Run.trace (handleStep Marking.numbered) {} calls).map
          (fun entry => (entry.1, entry.2.forget))
        = Run.trace (handleStep Marking.plain) {} calls := by
  obtain ⟨htrace, hfinal⟩ := handleRun_plain calls
  have hempty : HandleWorld.Kept {} := by
    refine ⟨?_, ?_, ?_, ?_, List.Perm.refl []⟩
    · exact fun _ hmem => absurd hmem List.not_mem_nil
    · exact fun _ hmem => absurd hmem List.not_mem_nil
    · exact fun _ hmem => absurd hmem List.not_mem_nil
    · intro k entry hget
      cases hget
  exact ⟨(Run.final_invariant handleStep_kept calls {} hempty).linear, hfinal, htrace⟩

/-- A live handle is assigned over while `FreePages` fails, and assigned to
    itself; the second allocation is released. -/
example :
    let world := Run.final (handleStep Marking.numbered) {}
      [.allocatePageSpan 7 (.ok (some { data := 4096, pageCount := 1 })),
        .allocatePageSpan 7 (.ok (some { data := 8192, pageCount := 2 })),
        .moveAssign 0 1 (errorResult .internal []), .moveAssign 0 0 (.ok ()), .release 0,
        .destroy 0 (.ok ()), .destroy 1 (.ok ())]
    world.freedNumbers = [0] ∧ world.releasedNumbers = [1] := by
  decide

end MattSql
