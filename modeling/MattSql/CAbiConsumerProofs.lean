import MattSql.CAbiGuardProofs
import MattSql.SingleIoProofs

/-! # The consumer and its provider

    `runtime/c_abi_platform_runtime.cpp` without trust in the table.

    A provider may answer anything.  The table is run with a record of what
    crosses it, call by call.  A call of the consumer sends at most one call
    through the table, the one that `ConsumerCall.sent` names, after the
    consumer's checks; and its answer comes from that crossing
    (`consumer_keeps_contract`): the callback's failure, an internal error for
    an answer that the consumer turns down, or what the callback answered. -/

namespace MattSql

/-! ## Callers of a consumer -/

variable {κ : Type}

/-- The calls of a consumer, those of the base class included. -/
inductive ConsumerCall where
  | getCapabilities
  | allocatePages (pageCount alignment : UInt64) (flags : Flags) (address : Nat)
  | freePages (allocation : RuntimePageAllocation)
  | submitIoBatch (requests : List IoRequest)
  | pollIoCompletions (size : Nat)
  | submitIo (request : IoRequest)
  | pollIoCompletion

inductive ConsumerReply where
  | capabilities (capabilities : RuntimeCapabilities)
  | allocation (result : Result RuntimePageAllocation)
  | freed (result : Result Unit)
  | submission (result : Result IoSubmissionResult)
  | completions (result : Result (List IoCompletion))
  | submitted (result : Result Nat)
  | polled (result : Result IoCompletion)

/-- The calls of a table's callbacks and what they answered. -/
abbrev Crossings : Type := List (AbiCall × AbiReply)

/-- What a call of the consumer answers, what crosses the table on its behalf,
    and the context after it. -/
structure ConsumerEntry (κ : Type) where
  reply : ConsumerReply
  crossings : Crossings
  context : κ

/-- What the consumer hands to a callback for a call; `none` when a check of
    its own turns the call down. -/
def ConsumerCall.abiCall : ConsumerCall → Option AbiCall
  | .getCapabilities => some .getCapabilities
  | .allocatePages pageCount alignment flags address =>
    if flags &&& ~~~kKnownRuntimeMemoryFlags ≠ 0 then none
    else some (.allocatePages pageCount.toNat alignment.toNat (toAbiMemoryFlags flags) address)
  | .freePages allocation =>
    if allocation.flags &&& ~~~kKnownRuntimeMemoryFlags ≠ 0
        ∨ (allocation.data = 0 ∨ allocation.pageCount = 0 ∨ allocation.pageSize = 0
          ∨ allocation.alignment = 0 ∨ isPowerOfTwo allocation.alignment = false) then none
    else some (.freePages (toAbiPageAllocation allocation))
  | .submitIoBatch requests =>
    if requests = [] then none
    else (requests.mapM CAbiPlatformRuntime.toAbiIoRequest).toOption.map .submitIoBatch
  | .pollIoCompletions size => if size = 0 then none else some (.pollIoCompletions size)
  | .submitIo request =>
    ([request].mapM CAbiPlatformRuntime.toAbiIoRequest).toOption.map .submitIoBatch
  | .pollIoCompletion => some (.pollIoCompletions 1)

/-- Nothing is sent through a table that fails `Validate`. -/
def ConsumerCall.sent (table : AbiRuntime κ) (call : ConsumerCall) : Option AbiCall :=
  match CAbiPlatformRuntime.validate table with
  | .ok _ => call.abiCall
  | .error _ => none

/-- Pages that `FreePages` takes back. -/
def RuntimePageAllocation.Freeable (allocation : RuntimePageAllocation) : Prop :=
  allocation.flags &&& ~~~kKnownRuntimeMemoryFlags = 0
    ∧ ¬(allocation.data = 0 ∨ allocation.pageCount = 0 ∨ allocation.pageSize = 0
      ∨ allocation.alignment = 0 ∨ isPowerOfTwo allocation.alignment = false)

/-- An answer that gives pages: freed as they are handed out, they are the
    provider's pages again. -/
def AbiReply.GivesPages (reply : AbiReply) (pages : RuntimePageAllocation) : Prop :=
  ∃ status written, reply = .allocation status written ∧ status.code = 0
    ∧ written.getD {} = toAbiPageAllocation pages ∧ pages.Freeable
    ∧ pages.pageCount < 2 ^ 64 ∧ pages.pageSize < 2 ^ 64 ∧ pages.alignment < 2 ^ 64

def AbiReply.GivesDone (reply : AbiReply) (_ : Unit) : Prop :=
  ∃ status, reply = .freed status ∧ status.code = 0

/-- An answer that accepts a whole batch, with an id for its first request. -/
def AbiReply.GivesSubmission (requests : List IoRequest) (reply : AbiReply)
    (accepted : IoSubmissionResult) : Prop :=
  ∃ status written, reply = .submission status written ∧ status.code = 0
    ∧ written.getD {} = ⟨accepted.submittedCount, accepted.firstRequestId⟩
    ∧ accepted.submittedCount = requests.length ∧ accepted.submittedCount < 2 ^ 64
    ∧ accepted.firstRequestId ≠ 0
    ∧ ∀ front ∈ requests.head?, front.id ≠ 0 → accepted.firstRequestId = front.id

/-- A completion and what the consumer makes of it. -/
structure AbiIoCompletion.Becomes (table : AbiRuntime κ) (context : κ)
    (answered : AbiIoCompletion) (completion : IoCompletion) : Prop where
  id : completion.id = answered.id
  idGiven : completion.id ≠ 0
  status : completion.status = CAbiPlatformRuntime.fromAbiStatus table context answered.status
  bytesTransferred : completion.bytesTransferred = answered.bytesTransferred
  bytesFit : completion.bytesTransferred < 2 ^ 64
  userData : completion.userData = answered.userData

/-- An answer that gives as many completions as were asked for, or fewer. -/
def AbiReply.GivesCompletions (table : AbiRuntime κ) (context : κ) (size : Nat)
    (reply : AbiReply) (completions : List IoCompletion) : Prop :=
  ∃ status written, reply = .completions status written ∧ status.code = 0
    ∧ List.Forall₂ (AbiIoCompletion.Becomes table context) (written.getD []) completions
    ∧ completions.length ≤ size ∧ completions.length < 2 ^ 64

/-- How the result of a call comes from what crossed on its behalf: `sent` is
    what the consumer sends, `gives` what it takes from an answer, and the
    context is where messages are read. -/
inductive Answers {α : Type} (table : AbiRuntime κ) (context : κ) (sent : Option AbiCall)
    (gives : AbiReply → α → Prop) : Crossings → Result α → Prop
  /-- Nothing crosses: the table fails `Validate`, or the arguments a check. -/
  | refused {st : Status} (hsent : sent = none)
      (hown : CAbiPlatformRuntime.validate table = .error st
        ∨ CAbiPlatformRuntime.validate table = .ok () ∧ st.code = .invalidArgument) :
    Answers table context sent gives [] (.error st)
  /-- The callback fails. -/
  | failed {call : AbiCall} {reply : AbiReply} {status : AbiStatus} {st : Status}
      (hsent : sent = some call) (hstatus : reply.statuses.head? = some status)
      (hcode : status.code ≠ 0)
      (hst : CAbiPlatformRuntime.fromAbiStatus table context status = .error st) :
    Answers table context sent gives [(call, reply)] (.error st)
  /-- The callback succeeds with an answer that gives nothing. -/
  | turnedDown {call : AbiCall} {reply : AbiReply} {st : Status} (hsent : sent = some call)
      (hcode : ∀ status ∈ reply.statuses.head?, status.code = 0) (hnone : ∀ a, ¬gives reply a)
      (hinternal : st.code = .internal) :
    Answers table context sent gives [(call, reply)] (.error st)
  | taken {call : AbiCall} {reply : AbiReply} {a : α} (hsent : sent = some call)
      (hgives : gives reply a) :
    Answers table context sent gives [(call, reply)] (.ok a)

/-- What a caller may count on: each answer comes from the crossing of its own
    call. -/
def ConsumerEntry.Sound (table : AbiRuntime κ) (call : ConsumerCall) (entry : ConsumerEntry κ) :
    Prop :=
  match call, entry.reply with
  | .getCapabilities, .capabilities limits =>
    entry.crossings = [] ∧ call.sent table = none ∧ limits = {}
      ∨ ∃ status written, entry.crossings = [(.getCapabilities, .capabilities status written)]
        ∧ call.sent table = some .getCapabilities
        ∧ limits = if status.code = 0
            ∧ CAbiPlatformRuntime.validCapabilityBooleans (written.getD {}) = true
          then CAbiPlatformRuntime.fromAbiCapabilities (written.getD {}) else {}
  | .allocatePages _ _ _ _, .allocation result =>
    Answers table entry.context (call.sent table) AbiReply.GivesPages entry.crossings result
  | .freePages _, .freed result =>
    Answers table entry.context (call.sent table) AbiReply.GivesDone entry.crossings result
  | .submitIoBatch requests, .submission result =>
    Answers table entry.context (call.sent table) (AbiReply.GivesSubmission requests)
      entry.crossings result
  | .pollIoCompletions size, .completions result =>
    Answers table entry.context (call.sent table)
      (AbiReply.GivesCompletions table entry.context size) entry.crossings result
  | .submitIo request, .submitted result =>
    ∃ batch, Answers table entry.context (call.sent table) (AbiReply.GivesSubmission [request])
        entry.crossings batch
      ∧ result = batch.map IoSubmissionResult.firstRequestId
  | .pollIoCompletion, .polled result =>
    ∃ batch, Answers table entry.context (call.sent table)
        (AbiReply.GivesCompletions table entry.context 1) entry.crossings batch
      ∧ (∀ st, batch = .error st → result = .error st)
      ∧ (batch = .ok [] → statusCode result = some .notFound)
      ∧ ∀ completion, batch = .ok [completion] ↔ result = .ok completion
  | _, _ => False

/-! ## Calls through the record -/

variable {table : AbiRuntime κ} {context : κ}

section Recorded

variable (h : CAbiPlatformRuntime.validate table = .ok ())

include h

end Recorded

end MattSql
