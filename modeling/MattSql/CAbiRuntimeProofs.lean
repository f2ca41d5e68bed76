import MattSql.BatchedIoProofs

/-! # The C ABI of the runtime

    `abi/runtime.h`, `runtime/c_abi_runtime_provider.cpp` and
    `runtime/c_abi_platform_runtime.cpp`: the provider puts a runtime behind a
    table of C callbacks, the consumer makes a runtime of such a table.

    A callback acts on the world of the provider: the runtime, the memory of
    the callers, and the strings that status messages point into.  Status
    messages are pointers, which the consumer reads after the callback has
    returned.  An out parameter is `none` where a callback leaves it as it was. -/

namespace MattSql

/-! ## The types of `abi/runtime.h` -/

/-- `MATTSQL_ABI_RUNTIME_VERSION`. -/
def kAbiRuntimeVersion : Nat := 1

/-- A `const char *` to a status message: null, a literal, the provider's
    `status_message_`, or one of its `completion_status_messages_`. -/
inductive AbiMessage where
  | null
  | literal (text : Bytes)
  | statusMessage
  | completionMessage (index : Nat)
  deriving DecidableEq

structure AbiStatus where
  code : Nat
  message : AbiMessage := .null
  messageLength : Nat := 0
  deriving DecidableEq

structure AbiRuntimeCapabilities where
  pageSize : Nat := 0
  blockSize : Nat := 0
  maxIoRequestSize : Nat := 0
  maxIoBatchSize : Nat := 0
  maxOutstandingIo : Nat := 0
  supportsAsyncIo : Nat := 0
  supportsFlush : Nat := 0
  supportsBarriers : Nat := 0
  supportsPhysicalAddresses : Nat := 0
  supportsDmaMemory : Nat := 0

structure AbiPageAllocation where
  data : Nat := 0
  pageCount : Nat := 0
  pageSize : Nat := 0
  alignment : Nat := 0
  flags : Flags := 0
  physicalAddress : Nat := 0

structure AbiIoRequest where
  id : Nat
  operation : Nat
  flags : Flags
  offset : Nat
  buffer : Nat
  bufferLength : Nat
  length : Nat
  userData : Nat

structure AbiIoCompletion where
  id : Nat
  status : AbiStatus
  bytesTransferred : Nat
  userData : Nat

structure AbiIoSubmissionResult where
  submittedCount : Nat := 0
  firstRequestId : Nat := 0

/-- `mattsql_abi_runtime_v1` over a context `κ`: the version and the callbacks,
    with `none` for a null pointer.  Each callback that has an out parameter
    answers what it writes there; completions are those counted by
    `out_completion_count`.  `readMessage` is the memory behind the message
    pointers. -/
structure AbiRuntime (κ : Type) where
  version : Nat
  getCapabilities : Option (κ → AbiStatus × Option AbiRuntimeCapabilities × κ)
  allocatePages : Option (κ → Nat → Nat → Flags → Nat → AbiStatus × Option AbiPageAllocation × κ)
  freePages : Option (κ → AbiPageAllocation → AbiStatus × κ)
  submitIoBatch : Option (κ → List AbiIoRequest → AbiStatus × Option AbiIoSubmissionResult × κ)
  pollIoCompletions : Option (κ → Nat → AbiStatus × Option (List AbiIoCompletion) × κ)
  hasMonotonicNanos : Bool
  hasLog : Bool
  hasPanic : Bool
  readMessage : κ → AbiMessage → Bytes

/-! ## Translations -/

/-- `fits_size_t`. -/
def fitsSizeT (value : Nat) : Bool := value ≤ 2 ^ 64 - 1

/-- `size_or_zero`. -/
def sizeOrZero (value : Nat) : Nat := if fitsSizeT value then value else 0

/-- `to_abi_status_code`; `none` is `ErrorCode::Ok`. -/
def toAbiStatusCode : Option ErrorCode → Nat
  | none => 0
  | some .invalidArgument => 1
  | some .notFound => 2
  | some .alreadyExists => 3
  | some .typeMismatch => 4
  | some .parseError => 5
  | some .bindError => 6
  | some .planError => 7
  | some .executionError => 8
  | some .ioError => 9
  | some .corruption => 10
  | some .transactionConflict => 11
  | some .notSupported => 12
  | some .internal => 13
  | some .undefined => 13

/-- `from_abi_status_code`. -/
def fromAbiStatusCode : Nat → Option ErrorCode
  | 0 => none
  | 1 => some .invalidArgument
  | 2 => some .notFound
  | 3 => some .alreadyExists
  | 4 => some .typeMismatch
  | 5 => some .parseError
  | 6 => some .bindError
  | 7 => some .planError
  | 8 => some .executionError
  | 9 => some .ioError
  | 10 => some .corruption
  | 11 => some .transactionConflict
  | 12 => some .notSupported
  | 13 => some .internal
  | _ => some .internal

def kAbiMemoryZeroed : Flags := 1
def kAbiMemoryDma : Flags := 2
def kAbiIoRequestBarrierBefore : Flags := 1
def kAbiIoRequestBarrierAfter : Flags := 2
def kAbiIoRequestForceUnitAccess : Flags := 4

def kKnownAbiMemoryFlags : Flags := kAbiMemoryZeroed ||| kAbiMemoryDma
def kKnownRuntimeMemoryFlags : Flags := kRuntimeMemoryZeroed ||| kRuntimeMemoryDma
def kKnownAbiIoRequestFlags : Flags :=
  kAbiIoRequestBarrierBefore ||| kAbiIoRequestBarrierAfter ||| kAbiIoRequestForceUnitAccess
def kKnownIoRequestFlags : Flags :=
  kIoRequestBarrierBefore ||| kIoRequestBarrierAfter ||| kIoRequestForceUnitAccess

/-- The bit `target` when the bit `source` is set. -/
def translateFlag (flags source target : Flags) : Flags :=
  if flags &&& source ≠ 0 then target else 0

/-- `to_abi_memory_flags`. -/
def toAbiMemoryFlags (flags : Flags) : Flags :=
  translateFlag flags kRuntimeMemoryZeroed kAbiMemoryZeroed
    ||| translateFlag flags kRuntimeMemoryDma kAbiMemoryDma

/-- `from_abi_memory_flags`. -/
def fromAbiMemoryFlags (flags : Flags) : Flags :=
  translateFlag flags kAbiMemoryZeroed kRuntimeMemoryZeroed
    ||| translateFlag flags kAbiMemoryDma kRuntimeMemoryDma

/-- `to_abi_io_request_flags`. -/
def toAbiIoRequestFlags (flags : Flags) : Flags :=
  translateFlag flags kIoRequestBarrierBefore kAbiIoRequestBarrierBefore
    ||| translateFlag flags kIoRequestBarrierAfter kAbiIoRequestBarrierAfter
    ||| translateFlag flags kIoRequestForceUnitAccess kAbiIoRequestForceUnitAccess

/-- `from_abi_io_request_flags`. -/
def fromAbiIoRequestFlags (flags : Flags) : Flags :=
  translateFlag flags kAbiIoRequestBarrierBefore kIoRequestBarrierBefore
    ||| translateFlag flags kAbiIoRequestBarrierAfter kIoRequestBarrierAfter
    ||| translateFlag flags kAbiIoRequestForceUnitAccess kIoRequestForceUnitAccess

/-- `to_abi_io_operation`. -/
def toAbiIoOperation : IoOperation → Option Nat
  | .read => some 0
  | .write => some 1
  | .flush => some 2
  | .unknown => none

/-- `from_abi_io_operation`. -/
def fromAbiIoOperation : Nat → Option IoOperation
  | 0 => some .read
  | 1 => some .write
  | 2 => some .flush
  | _ => none

/-- `to_abi_page_allocation`. -/
def toAbiPageAllocation (allocation : RuntimePageAllocation) : AbiPageAllocation :=
  { data := allocation.data
    pageCount := allocation.pageCount
    pageSize := allocation.pageSize
    alignment := allocation.alignment
    flags := toAbiMemoryFlags allocation.flags
    physicalAddress := allocation.physicalAddress }

/-- `from_abi_page_allocation` of the consumer. -/
def fromAbiPageAllocation (allocation : AbiPageAllocation) : RuntimePageAllocation :=
  { data := allocation.data
    pageCount := sizeOrZero allocation.pageCount
    pageSize := sizeOrZero allocation.pageSize
    alignment := sizeOrZero allocation.alignment
    flags := fromAbiMemoryFlags allocation.flags
    physicalAddress := allocation.physicalAddress }

/-- `from_abi_page_allocation` of the provider, where `to_size_t` keeps the
    low 64 bits. -/
def providerPageAllocation (allocation : AbiPageAllocation) : RuntimePageAllocation :=
  { data := allocation.data
    pageCount := allocation.pageCount % 2 ^ 64
    pageSize := allocation.pageSize % 2 ^ 64
    alignment := allocation.alignment % 2 ^ 64
    flags := fromAbiMemoryFlags allocation.flags
    physicalAddress := allocation.physicalAddress }

/-! ## The provider -/

/-- `CAbiRuntimeProvider` with the runtime behind it and the memory of the
    callers. -/
structure CAbiRuntimeProvider extends IoWorld where
  statusMessage : Bytes := []
  completionStatusMessages : List Bytes := []

/-- `literal_status`. -/
def literalStatus (code : Nat) (message : Bytes) : AbiStatus :=
  { code, message := .literal message, messageLength := message.length }

/-- `ok_abi_status`. -/
def okAbiStatus : AbiStatus := { code := toAbiStatusCode none }

namespace CAbiRuntimeProvider

/-- `StoreStatus`. -/
def storeStatus (provider : CAbiRuntimeProvider) (status : Result Unit) :
    AbiStatus × CAbiRuntimeProvider :=
  match status with
  | .ok _ => (okAbiStatus, { provider with statusMessage := [] })
  | .error st =>
    (if st.message = [] then { code := toAbiStatusCode (some st.code) }
      else
        { code := toAbiStatusCode (some st.code), message := .statusMessage
          messageLength := st.message.length },
      { provider with statusMessage := st.message })

/-- `StoreError`. -/
def storeError (provider : CAbiRuntimeProvider) (code : ErrorCode) (message : Bytes) :
    AbiStatus × CAbiRuntimeProvider :=
  provider.storeStatus (errorResult code message)

/-- The answer of a callback that returns before it writes its out parameter. -/
def unwritten {α : Type} (answer : AbiStatus × CAbiRuntimeProvider) :
    AbiStatus × Option α × CAbiRuntimeProvider :=
  (answer.1, none, answer.2)

/-- `1` for true and `0` for false. -/
def abiBool (value : Bool) : Nat := if value then 1 else 0

/-- What `GetCapabilities` writes. -/
def toAbiCapabilities (capabilities : RuntimeCapabilities) : AbiRuntimeCapabilities :=
  { pageSize := capabilities.pageSize
    blockSize := capabilities.blockSize
    maxIoRequestSize := capabilities.maxIoRequestSize
    maxIoBatchSize := capabilities.maxIoBatchSize
    maxOutstandingIo := capabilities.maxOutstandingIo
    supportsAsyncIo := abiBool capabilities.supportsAsyncIo
    supportsFlush := abiBool capabilities.supportsFlush
    supportsBarriers := abiBool capabilities.supportsBarriers
    supportsPhysicalAddresses := abiBool capabilities.supportsPhysicalAddresses
    supportsDmaMemory := abiBool capabilities.supportsDmaMemory }

/-- `CAbiRuntimeProvider::GetCapabilities`.  Here and below, `missing` tells
    that the context or a pointer among the arguments is null. -/
def getCapabilities (missing : Bool) (provider : CAbiRuntimeProvider) :
    AbiStatus × Option AbiRuntimeCapabilities × CAbiRuntimeProvider :=
  if missing then (literalStatus 1 (ascii "missing capabilities argument"), none, provider)
  else (okAbiStatus, some (toAbiCapabilities provider.runtime.getCapabilities), provider)

/-- `validate_runtime_allocation`. -/
def validateRuntimeAllocation (allocation : RuntimePageAllocation) : Result Unit :=
  if allocation.flags &&& ~~~kKnownRuntimeMemoryFlags ≠ 0 then
    errorResult .internal (ascii "runtime returned unknown page allocation flags")
  else if allocation.data = 0 ∨ allocation.pageCount = 0 ∨ allocation.pageSize = 0
      ∨ allocation.alignment = 0 ∨ isPowerOfTwo allocation.alignment = false then
    errorResult .internal (ascii "runtime returned invalid page allocation metadata")
  else .ok ()

/-- `CAbiRuntimeProvider::AllocatePages`. -/
def allocatePages (missing : Bool) (provider : CAbiRuntimeProvider) (pageCount alignment : Nat)
    (flags : Flags) (address : Nat) : AbiStatus × Option AbiPageAllocation × CAbiRuntimeProvider :=
  if missing then (literalStatus 1 (ascii "invalid page allocation request"), none, provider)
  else if flags &&& ~~~kKnownAbiMemoryFlags ≠ 0 then
    unwritten (provider.storeError .invalidArgument (ascii "unknown page allocation flags"))
  else if fitsSizeT pageCount = false ∨ fitsSizeT alignment = false then
    unwritten (provider.storeError .invalidArgument (ascii "page allocation metadata is too large"))
  else
    let (result, memory) := HostedPlatformRuntime.allocatePages provider.memory
      (pageCount % 2 ^ 64) (alignment % 2 ^ 64) (fromAbiMemoryFlags flags) address
    let provider := { provider with memory }
    match result with
    | .error st => unwritten (provider.storeStatus (.error st))
    | .ok allocation =>
      match validateRuntimeAllocation allocation with
      | .error st => unwritten (provider.storeStatus (.error st))
      | .ok _ => (okAbiStatus, some (toAbiPageAllocation allocation), provider)

/-- `CAbiRuntimeProvider::FreePages`. -/
def freePages (missing : Bool) (provider : CAbiRuntimeProvider) (allocation : AbiPageAllocation) :
    AbiStatus × CAbiRuntimeProvider :=
  if missing then (literalStatus 1 (ascii "invalid page allocation"), provider)
  else if allocation.flags &&& ~~~kKnownAbiMemoryFlags ≠ 0 then
    provider.storeError .invalidArgument (ascii "unknown page allocation flags")
  else if fitsSizeT allocation.pageCount = false ∨ fitsSizeT allocation.pageSize = false
      ∨ fitsSizeT allocation.alignment = false then
    provider.storeError .invalidArgument (ascii "page allocation metadata is too large")
  else if allocation.data = 0 ∨ allocation.pageCount = 0 ∨ allocation.pageSize = 0
      ∨ allocation.alignment = 0 ∨ isPowerOfTwo (allocation.alignment % 2 ^ 64) = false then
    provider.storeError .invalidArgument (ascii "page allocation metadata is invalid")
  else
    provider.storeStatus (HostedPlatformRuntime.freePages (providerPageAllocation allocation))

/-- What the check on null buffers gives. -/
theorem null_span_empty {buffer length : Nat} (h : ¬ (buffer = 0 ∧ length ≠ 0)) :
    buffer = 0 → length % 2 ^ 64 = 0 := by
  intro hbuffer
  have hlength : length = 0 := by
    by_contra hne
    exact h ⟨hbuffer, hne⟩
  rw [hlength]
  rfl

/-- One round of the loop of `SubmitIoBatch`. -/
def fromAbiIoRequest (abiRequest : AbiIoRequest) : Result IoRequest :=
  match fromAbiIoOperation abiRequest.operation with
  | none => errorResult .invalidArgument (ascii "unknown I/O operation")
  | some operation =>
    if abiRequest.flags &&& ~~~kKnownAbiIoRequestFlags ≠ 0 then
      errorResult .invalidArgument (ascii "unknown I/O request flags")
    else if fitsSizeT abiRequest.bufferLength = false ∨ fitsSizeT abiRequest.length = false then
      errorResult .invalidArgument (ascii "I/O request length is too large")
    else if operation ≠ .flush ∧ abiRequest.buffer = 0 then
      errorResult .invalidArgument (ascii "buffered I/O request has null buffer")
    else if hnull : abiRequest.buffer = 0 ∧ abiRequest.bufferLength ≠ 0 then
      errorResult .invalidArgument (ascii "I/O request has null buffer with length")
    else if operation ≠ .flush ∧ abiRequest.length > abiRequest.bufferLength then
      errorResult .invalidArgument (ascii "I/O request length exceeds its buffer")
    else
      .ok
        { id := abiRequest.id
          operation
          offset := abiRequest.offset
          buffer :=
            { data := abiRequest.buffer
              size := abiRequest.bufferLength % 2 ^ 64
              wellFormed := null_span_empty hnull
              sizeFits := Nat.mod_lt _ (by decide) }
          length := abiRequest.length % 2 ^ 64
          flags := fromAbiIoRequestFlags abiRequest.flags
          userData := abiRequest.userData
          lengthFits := Nat.mod_lt _ (by decide) }

/-- `CAbiRuntimeProvider::SubmitIoBatch`.  `allocates` is whether the host has
    the memory for a vector of the size that the caller names. -/
def submitIoBatch (missing allocates : Bool) (provider : CAbiRuntimeProvider)
    (requests : List AbiIoRequest) :
    AbiStatus × Option AbiIoSubmissionResult × CAbiRuntimeProvider :=
  if missing ∨ requests.length = 0 then
    (literalStatus 1 (ascii "invalid I/O batch"), none, provider)
  else if fitsSizeT requests.length = false then
    unwritten (provider.storeError .invalidArgument (ascii "I/O batch is too large"))
  -- `reserve` throws
  else if allocates = false then
    unwritten (provider.storeError .internal (ascii "exception escaped I/O submission callback"))
  else
    match requests.mapM fromAbiIoRequest with
    | .error st => unwritten (provider.storeStatus (.error st))
    | .ok runtimeRequests =>
      let (result, runtime, memory) :=
        provider.runtime.submitIoBatch provider.memory runtimeRequests
      let provider := { provider with runtime, memory }
      match result with
      | .error st => unwritten (provider.storeStatus (.error st))
      | .ok submission =>
        if submission.submittedCount ≠ runtimeRequests.length then
          unwritten (provider.storeError .internal
            (ascii "runtime returned an invalid I/O submission count"))
        else if submission.firstRequestId = 0 ∨ ∃ front ∈ runtimeRequests.head?,
            front.id ≠ 0 ∧ submission.firstRequestId ≠ front.id then
          unwritten (provider.storeError .internal
            (ascii "runtime returned an invalid first I/O request id"))
        else
          (okAbiStatus,
            some
              { submittedCount := submission.submittedCount
                firstRequestId := submission.firstRequestId }, provider)

/-- The message of a status; a successful one has none. -/
def messageOf : Result Unit → Bytes
  | .ok _ => []
  | .error st => st.message

/-- The loop of `PollIoCompletions`: the completions, and the messages that
    they point to behind the ones stored already. -/
def toAbiIoCompletions (messages : List Bytes) :
    List IoCompletion → List AbiIoCompletion × List Bytes
  | [] => ([], messages)
  | completion :: rest =>
    let code := toAbiStatusCode (statusCode completion.status)
    let message := messageOf completion.status
    let status : AbiStatus :=
      if message = [] then { code }
      else { code, message := .completionMessage messages.length, messageLength := message.length }
    let stored := if message = [] then messages else messages ++ [message]
    ({ id := completion.id
       status
       bytesTransferred := completion.bytesTransferred
       userData := completion.userData } :: (toAbiIoCompletions stored rest).1,
      (toAbiIoCompletions stored rest).2)

/-- `CAbiRuntimeProvider::PollIoCompletions`. -/
def pollIoCompletions (missing allocates : Bool) (provider : CAbiRuntimeProvider)
    (maxCompletionCount : Nat) :
    AbiStatus × Option (List AbiIoCompletion) × CAbiRuntimeProvider :=
  if missing ∨ maxCompletionCount = 0 then
    (literalStatus 1 (ascii "invalid completion poll"), none, provider)
  else if fitsSizeT maxCompletionCount = false then
    unwritten (provider.storeError .invalidArgument (ascii "completion batch is too large"))
  -- the vector of `maxCompletionCount` completions cannot be built
  else if allocates = false then
    unwritten (provider.storeError .internal (ascii "exception escaped completion poll callback"))
  else
    let (result, runtime) := provider.runtime.pollIoCompletions (maxCompletionCount % 2 ^ 64)
    let provider := { provider with runtime }
    match result with
    | .error st => unwritten (provider.storeStatus (.error st))
    | .ok completions =>
      if completions.length > maxCompletionCount % 2 ^ 64 then
        unwritten (provider.storeError .internal (ascii "runtime returned too many completions"))
      else
        let (abiCompletions, messages) := toAbiIoCompletions [] completions
        (okAbiStatus, some abiCompletions, { provider with completionStatusMessages := messages })

/-- The text behind a message pointer. -/
def readMessage (provider : CAbiRuntimeProvider) : AbiMessage → Bytes
  | .null => []
  | .literal text => text
  | .statusMessage => provider.statusMessage
  | .completionMessage index => provider.completionStatusMessages.getD index []

/-- `CAbiRuntimeProvider::RuntimeTable`, as the consumer calls it: it passes no
    null pointer, and what it asks for fits into the host's memory. -/
def runtimeTable : AbiRuntime CAbiRuntimeProvider :=
  { version := kAbiRuntimeVersion
    getCapabilities := some (getCapabilities false)
    allocatePages := some (allocatePages false)
    freePages := some (freePages false)
    submitIoBatch := some (submitIoBatch false true)
    pollIoCompletions := some (pollIoCompletions false true)
    hasMonotonicNanos := true
    hasLog := true
    hasPanic := true
    readMessage }

end CAbiRuntimeProvider

/-! ## The consumer -/

namespace CAbiPlatformRuntime

variable {κ : Type}

/-- `from_abi_message`. -/
def fromAbiMessage (table : AbiRuntime κ) (context : κ) (status : AbiStatus) : Bytes :=
  if status.message = .null ∨ status.messageLength = 0 then []
  else if status.messageLength > 2 ^ 64 - 1 then ascii "ABI status message is too large"
  else (table.readMessage context status.message).take status.messageLength

/-- `from_abi_status`. -/
def fromAbiStatus (table : AbiRuntime κ) (context : κ) (status : AbiStatus) : Result Unit :=
  match fromAbiStatusCode status.code with
  | none => .ok ()
  | some code => .error ⟨code, fromAbiMessage table context status⟩

/-- `abi_status_ok`. -/
def abiStatusOk (status : AbiStatus) : Bool := status.code = 0

/-- An `error_result` from the status of a callback. -/
def abiError {α : Type} (table : AbiRuntime κ) (context : κ) (status : AbiStatus) : Result α :=
  match fromAbiStatus table context status with
  | .ok _ => errorResult .undefined (ascii "error result with an ok status")
  | .error st => .error st

/-- `CAbiPlatformRuntime::Validate`. -/
def validate (table : AbiRuntime κ) : Result Unit :=
  if table.version ≠ kAbiRuntimeVersion then
    errorResult .invalidArgument (ascii "unsupported C ABI runtime version")
  else if table.getCapabilities.isNone ∨ table.allocatePages.isNone ∨ table.freePages.isNone
      ∨ table.submitIoBatch.isNone ∨ table.pollIoCompletions.isNone
      ∨ table.hasMonotonicNanos = false ∨ table.hasLog = false ∨ table.hasPanic = false then
    errorResult .invalidArgument (ascii "C ABI runtime table is missing required callbacks")
  else .ok ()

/-- `valid_abi_bool`. -/
def validAbiBool (value : Nat) : Bool := value ≤ 1

/-- `valid_capability_booleans`. -/
def validCapabilityBooleans (capabilities : AbiRuntimeCapabilities) : Bool :=
  validAbiBool capabilities.supportsAsyncIo && validAbiBool capabilities.supportsFlush
    && validAbiBool capabilities.supportsBarriers
    && validAbiBool capabilities.supportsPhysicalAddresses
    && validAbiBool capabilities.supportsDmaMemory

/-- What `GetCapabilities` makes of valid capabilities. -/
def fromAbiCapabilities (capabilities : AbiRuntimeCapabilities) : RuntimeCapabilities :=
  { pageSize := sizeOrZero capabilities.pageSize
    blockSize := sizeOrZero capabilities.blockSize
    maxIoRequestSize := sizeOrZero capabilities.maxIoRequestSize
    maxIoBatchSize := sizeOrZero capabilities.maxIoBatchSize
    maxOutstandingIo := sizeOrZero capabilities.maxOutstandingIo
    supportsAsyncIo := capabilities.supportsAsyncIo ≠ 0
    supportsFlush := capabilities.supportsFlush ≠ 0
    supportsBarriers := capabilities.supportsBarriers ≠ 0
    supportsPhysicalAddresses := capabilities.supportsPhysicalAddresses ≠ 0
    supportsDmaMemory := capabilities.supportsDmaMemory ≠ 0 }

/-- `CAbiPlatformRuntime::GetCapabilities`. -/
def getCapabilities (table : AbiRuntime κ) (context : κ) : RuntimeCapabilities × κ :=
  match validate table, table.getCapabilities with
  | .ok _, some callback =>
    -- the out parameter starts out zeroed
    let (status, written, context) := callback context
    let capabilities := written.getD {}
    if abiStatusOk status = false then ({}, context)
    else if validCapabilityBooleans capabilities = false then ({}, context)
    else (fromAbiCapabilities capabilities, context)
  | _, _ => ({}, context)

/-- A call through a table that passes `Validate`; the callback is then not
    null. -/
def throughCallback {α γ : Type} (table : AbiRuntime κ) (context : κ) (callback : Option γ)
    (call : γ → Result α × κ) : Result α × κ :=
  match validate table with
  | .error st => (.error st, context)
  | .ok _ =>
    match callback with
    | none => (errorResult .undefined (ascii "null callback"), context)
    | some callback => call callback

/-- `CAbiPlatformRuntime::AllocatePages`. -/
def allocatePages (table : AbiRuntime κ) (context : κ) (pageCount alignment : Nat) (flags : Flags)
    (address : Nat) : Result RuntimePageAllocation × κ :=
  throughCallback table context table.allocatePages fun callback =>
    if flags &&& ~~~kKnownRuntimeMemoryFlags ≠ 0 then
      (errorResult .invalidArgument (ascii "unknown page allocation flags"), context)
    else
      let (status, written, context) :=
        callback context pageCount alignment (toAbiMemoryFlags flags) address
      let allocation := written.getD {}
      if abiStatusOk status = false then (abiError table context status, context)
      else if fitsSizeT allocation.pageCount = false ∨ fitsSizeT allocation.pageSize = false
          ∨ fitsSizeT allocation.alignment = false then
        (errorResult .internal (ascii "C ABI page allocation metadata is too large"), context)
      else if allocation.flags &&& ~~~kKnownRuntimeMemoryFlags ≠ 0 then
        (errorResult .internal (ascii "C ABI page allocation flags are invalid"), context)
      else if allocation.data = 0 ∨ allocation.pageCount = 0 ∨ allocation.pageSize = 0
          ∨ allocation.alignment = 0 then
        (errorResult .internal (ascii "C ABI page allocation metadata is invalid"), context)
      else if isPowerOfTwo (allocation.alignment % 2 ^ 64) = false then
        (errorResult .internal (ascii "C ABI page allocation alignment is invalid"), context)
      else (.ok (fromAbiPageAllocation allocation), context)

/-- `CAbiPlatformRuntime::FreePages`. -/
def freePages (table : AbiRuntime κ) (context : κ) (allocation : RuntimePageAllocation) :
    Result Unit × κ :=
  throughCallback table context table.freePages fun callback =>
    if allocation.flags &&& ~~~kKnownRuntimeMemoryFlags ≠ 0 then
      (errorResult .invalidArgument (ascii "unknown page allocation flags"), context)
    else if allocation.data = 0 ∨ allocation.pageCount = 0 ∨ allocation.pageSize = 0
        ∨ allocation.alignment = 0 ∨ isPowerOfTwo allocation.alignment = false then
      (errorResult .invalidArgument (ascii "page allocation metadata is invalid"), context)
    else
      let (status, context) := callback context (toAbiPageAllocation allocation)
      (fromAbiStatus table context status, context)

/-- One round of the loop of `SubmitIoBatch`. -/
def toAbiIoRequest (request : IoRequest) : Result AbiIoRequest :=
  match toAbiIoOperation request.operation with
  | none => errorResult .invalidArgument (ascii "unknown I/O operation")
  | some operation =>
    if request.flags &&& ~~~kKnownIoRequestFlags ≠ 0 then
      errorResult .invalidArgument (ascii "unknown I/O request flags")
    else if request.operation ≠ .flush ∧ request.length > request.buffer.size then
      errorResult .invalidArgument (ascii "I/O request length exceeds its buffer")
    else
      .ok
        { id := request.id
          operation
          flags := toAbiIoRequestFlags request.flags
          offset := request.offset
          buffer := request.buffer.data
          bufferLength := request.buffer.size
          length := request.length
          userData := request.userData }

/-- `CAbiPlatformRuntime::SubmitIoBatch`. -/
def submitIoBatch (table : AbiRuntime κ) (context : κ) (requests : List IoRequest) :
    Result IoSubmissionResult × κ :=
  throughCallback table context table.submitIoBatch fun callback =>
    if requests = [] then
      (errorResult .invalidArgument (ascii "I/O batch must be non-empty"), context)
    else
      match requests.mapM toAbiIoRequest with
      | .error st => (.error st, context)
      | .ok abiRequests =>
        let (status, written, context) := callback context abiRequests
        let submission := written.getD {}
        if abiStatusOk status = false then (abiError table context status, context)
        else if fitsSizeT submission.submittedCount = false then
          (errorResult .internal (ascii "C ABI submitted count is too large"), context)
        else if submission.submittedCount ≠ requests.length then
          (errorResult .internal
            (ascii "C ABI submitted count violates all-or-error submission"), context)
        else if submission.firstRequestId = 0 ∨ ∃ front ∈ requests.head?,
            front.id ≠ 0 ∧ submission.firstRequestId ≠ front.id then
          (errorResult .internal (ascii "C ABI first request ID is invalid"), context)
        else
          (.ok
            { submittedCount := submission.submittedCount % 2 ^ 64
              firstRequestId := submission.firstRequestId }, context)

/-- One round of the loop of `PollIoCompletions`. -/
def fromAbiIoCompletion (table : AbiRuntime κ) (context : κ) (abiCompletion : AbiIoCompletion) :
    Result IoCompletion :=
  if abiCompletion.id = 0 then
    errorResult .internal (ascii "C ABI completion request id is invalid")
  else if fitsSizeT abiCompletion.bytesTransferred = false then
    errorResult .internal (ascii "C ABI completion byte count is too large")
  else
    .ok
      { id := abiCompletion.id
        status := fromAbiStatus table context abiCompletion.status
        bytesTransferred := abiCompletion.bytesTransferred % 2 ^ 64
        userData := abiCompletion.userData }

/-- `CAbiPlatformRuntime::PollIoCompletions`. -/
def pollIoCompletions (table : AbiRuntime κ) (context : κ) (size : Nat) :
    Result (List IoCompletion) × κ :=
  throughCallback table context table.pollIoCompletions fun callback =>
    if size = 0 then
      (errorResult .invalidArgument (ascii "completion output span must be non-empty"), context)
    else
      let (status, written, context) := callback context size
      let abiCompletions := written.getD []
      if abiStatusOk status = false then (abiError table context status, context)
      else if fitsSizeT abiCompletions.length = false ∨ abiCompletions.length > size then
        (errorResult .internal (ascii "C ABI completion count is invalid"), context)
      else (abiCompletions.mapM (fromAbiIoCompletion table context), context)

end CAbiPlatformRuntime

end MattSql
