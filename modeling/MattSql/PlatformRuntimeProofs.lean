import MattSql.Library.ByteSpanProofs
import MattSql.SchemaProofs

/-! # The hosted platform runtime

    `runtime/platform.hpp`, `runtime/hosted_platform_runtime.cpp` and
    `storage/memory_block_device.cpp`: page allocations, batched block I/O and
    the completion queue over a memory block device.

    A buffer is a span of the caller's memory, a function from addresses to
    bytes, so that buffers may overlap.  The bytes of the device are its own.
    `std::size_t` and the 64-bit counters are natural numbers, with the
    reduction written out where they can wrap; flag words are bit vectors. -/

namespace MattSql

open ByteSpan

/-! ## Memory and the block device -/

/-- The memory of the callers. -/
abbrev Memory := Nat → UInt8

/-- `BufferView`: the address of the first byte, 0 for the null pointer, and
    the number of bytes. -/
structure BufferView where
  data : Nat := 0
  size : Nat := 0
  /-- A span of some bytes does not start at the null pointer. -/
  wellFormed : data = 0 → size = 0 := by decide
  sizeFits : size < 2 ^ 64 := by decide
  deriving DecidableEq

/-- The bytes of a span. -/
def Memory.load (memory : Memory) (data length : Nat) : Bytes :=
  (List.range length).map fun i => memory (data + i)

/-- `std::copy` to the given address. -/
def Memory.store (memory : Memory) (data : Nat) (bytes : Bytes) : Memory := fun address =>
  if data ≤ address ∧ address < data + bytes.length then bytes.getD (address - data) 0
  else memory address

/-- `MemoryBlockDevice`. -/
structure MemoryBlockDevice where
  blockSize : Nat
  valid : Bool
  data : Bytes
  geometry : valid = true → 0 < blockSize
  blockSizeFits : blockSize < 2 ^ 64
  deriving DecidableEq

/-- The constructor of `MemoryBlockDevice`. -/
def MemoryBlockDevice.ofSize (sizeBytes blockSize : Nat) (hfits : blockSize < 2 ^ 64 := by decide) :
    MemoryBlockDevice :=
  if h : blockSize = 0 ∨ sizeBytes = 0 ∨ sizeBytes % blockSize ≠ 0 ∨ sizeBytes > 2 ^ 64 - 1 then
    { blockSize, valid := false, data := [], geometry := fun h => (Bool.false_ne_true h).elim
      blockSizeFits := hfits }
  else
    { blockSize, valid := true, data := List.replicate sizeBytes 0
      geometry := fun _ => Nat.pos_of_ne_zero fun h0 => h (.inl h0)
      blockSizeFits := hfits }

def MemoryBlockDevice.sizeBytes (device : MemoryBlockDevice) : Nat := device.data.length

/-- `MemoryBlockDevice::ValidateAccess`. -/
def MemoryBlockDevice.validateAccess (device : MemoryBlockDevice) (offset length : Nat) :
    Result Unit :=
  if device.valid = false then
    errorResult .invalidArgument (ascii "memory block device has invalid geometry")
  else if offset % device.blockSize ≠ 0 ∨ length % device.blockSize ≠ 0 then
    errorResult .invalidArgument (ascii "memory block device access must be block aligned")
  else if offset > device.sizeBytes then
    errorResult .invalidArgument (ascii "memory block device access starts past the device")
  else if length > device.sizeBytes - offset then
    errorResult .invalidArgument (ascii "memory block device access extends past the device")
  else .ok ()

/-- `MemoryBlockDevice::Read` into `length` bytes of the caller's memory. -/
def MemoryBlockDevice.read (device : MemoryBlockDevice) (memory : Memory)
    (offset data length : Nat) : Result Unit × Memory :=
  match device.validateAccess offset length with
  | .error st => (.error st, memory)
  | .ok _ => (.ok (), memory.store data (slice device.data offset length))

/-- `MemoryBlockDevice::Write` of `length` bytes of the caller's memory. -/
def MemoryBlockDevice.write (device : MemoryBlockDevice) (memory : Memory)
    (offset data length : Nat) : Result Unit × MemoryBlockDevice :=
  match device.validateAccess offset length with
  | .error st => (.error st, device)
  | .ok _ => (.ok (), { device with data := splice device.data offset (memory.load data length) })

/-- `MemoryBlockDevice::Flush`. -/
def MemoryBlockDevice.flush (device : MemoryBlockDevice) (offset length : Nat) : Result Unit :=
  device.validateAccess offset length

/-! ## Requests and completions -/

/-- `IoOperation`; `unknown` stands for the values of the enumeration's type
    that have no name. -/
inductive IoOperation where
  | read
  | write
  | flush
  | unknown
  deriving DecidableEq

/-- `IoRequestFlags` and `RuntimeMemoryFlags`. -/
abbrev Flags := BitVec 32

def kRuntimeMemoryNormal : Flags := 0
def kRuntimeMemoryZeroed : Flags := 1
def kRuntimeMemoryDma : Flags := 2

def kIoRequestNoFlags : Flags := 0
def kIoRequestBarrierBefore : Flags := 1
def kIoRequestBarrierAfter : Flags := 2
def kIoRequestForceUnitAccess : Flags := 4

structure IoRequest where
  id : Nat := 0
  operation : IoOperation := .read
  offset : Nat := 0
  buffer : BufferView := {}
  length : Nat := 0
  flags : Flags := kIoRequestNoFlags
  userData : Nat := 0
  lengthFits : length < 2 ^ 64 := by decide
  deriving DecidableEq

structure IoCompletion where
  id : Nat := 0
  status : Result Unit := .ok ()
  bytesTransferred : Nat := 0
  userData : Nat := 0
  deriving DecidableEq

structure IoSubmissionResult where
  submittedCount : Nat := 0
  firstRequestId : Nat := 0
  deriving DecidableEq

structure RuntimeCapabilities where
  pageSize : Nat := kDefaultPageSize
  blockSize : Nat := 0
  maxIoRequestSize : Nat := 0
  maxIoBatchSize : Nat := 1
  maxOutstandingIo : Nat := 1
  supportsAsyncIo : Bool := false
  supportsFlush : Bool := false
  supportsBarriers : Bool := false
  supportsPhysicalAddresses : Bool := false
  supportsDmaMemory : Bool := false
  deriving DecidableEq

structure RuntimePageAllocation where
  data : Nat := 0
  pageCount : Nat := 0
  pageSize : Nat := kDefaultPageSize
  alignment : Nat := kDefaultPageSize
  flags : Flags := kRuntimeMemoryZeroed
  physicalAddress : Nat := 0
  deriving DecidableEq

/-! ## The runtime -/

/-- `HostedPlatformRuntime::Impl`, with the block device it points to. -/
structure HostedPlatformRuntime where
  blockDevice : Option MemoryBlockDevice := none
  nextIoRequestId : Nat := 1
  completions : List IoCompletion := []
  deriving DecidableEq

def kHostedMaxIoRequestSize : Nat := 2 ^ 20
def kHostedMaxIoBatchSize : Nat := 64
def kHostedMaxOutstandingIo : Nat := 1024
def kHostedKnownMemoryFlags : Flags := kRuntimeMemoryZeroed ||| kRuntimeMemoryDma
def kHostedKnownIoRequestFlags : Flags :=
  kIoRequestBarrierBefore ||| kIoRequestBarrierAfter ||| kIoRequestForceUnitAccess

/-- `alignof(std::max_align_t)`. -/
def kMaxAlign : Nat := 16

/-- `is_power_of_two`. -/
def isPowerOfTwo (value : Nat) : Bool := value ≠ 0 ∧ value &&& (value - 1) = 0

/-- `effective_request_length`. -/
def effectiveRequestLength (request : IoRequest) : Nat :=
  if request.length ≠ 0 then request.length else request.buffer.size

/-- `validate_buffered_io_request`. -/
def validateBufferedIoRequest (request : IoRequest) (length : Nat) : Result Unit :=
  if length = 0 then
    errorResult .invalidArgument (ascii "buffered I/O requests must be non-empty")
  else if length > request.buffer.size then
    errorResult .invalidArgument (ascii "I/O request length exceeds its buffer")
  else if length > kHostedMaxIoRequestSize then
    errorResult .invalidArgument (ascii "I/O request exceeds hosted maximum request size")
  else .ok ()

/-- `HostedPlatformRuntime::GetCapabilities`. -/
def HostedPlatformRuntime.getCapabilities (runtime : HostedPlatformRuntime) :
    RuntimeCapabilities :=
  { pageSize := kDefaultPageSize
    blockSize := match runtime.blockDevice with
      | none => 0
      | some device => device.blockSize
    maxIoRequestSize := kHostedMaxIoRequestSize
    maxIoBatchSize := kHostedMaxIoBatchSize
    maxOutstandingIo := kHostedMaxOutstandingIo
    supportsAsyncIo := false
    supportsFlush := runtime.blockDevice.isSome
    supportsBarriers := runtime.blockDevice.isSome
    supportsPhysicalAddresses := false
    supportsDmaMemory := false }

/-- `HostedPlatformRuntime::AllocatePages`.  `address` is what `operator new`
    returns, 0 when it fails. -/
def HostedPlatformRuntime.allocatePages (memory : Memory) (pageCount alignment : Nat)
    (flags : Flags) (address : Nat) : Result RuntimePageAllocation × Memory :=
  if pageCount = 0 then
    (errorResult .invalidArgument (ascii "page count must be positive"), memory)
  else
    let alignment := if alignment = 0 then kDefaultPageSize else alignment
    if isPowerOfTwo alignment = false then
      (errorResult .invalidArgument (ascii "page allocation alignment must be a power of two"),
        memory)
    else if flags &&& ~~~kHostedKnownMemoryFlags ≠ 0 then
      (errorResult .invalidArgument (ascii "unknown page allocation flags"), memory)
    else if flags &&& kRuntimeMemoryDma ≠ 0 then
      (errorResult .notSupported (ascii "hosted runtime does not support DMA memory"), memory)
    else
      let alignment := if alignment < kMaxAlign then kMaxAlign else alignment
      if pageCount > (2 ^ 64 - 1) / kDefaultPageSize then
        (errorResult .invalidArgument (ascii "page allocation is too large"), memory)
      else if address = 0 then
        (errorResult .internal (ascii "host page allocation failed"), memory)
      else
        (.ok { data := address, pageCount, pageSize := kDefaultPageSize, alignment, flags,
               physicalAddress := 0 },
          if flags &&& kRuntimeMemoryZeroed ≠ 0 then
            memory.store address (List.replicate (pageCount * kDefaultPageSize) 0)
          else memory)

/-- `HostedPlatformRuntime::FreePages`; giving the pages back to the host
    changes nothing that is modelled here. -/
def HostedPlatformRuntime.freePages (allocation : RuntimePageAllocation) : Result Unit :=
  if allocation.data = 0 then
    errorResult .invalidArgument (ascii "allocation data is null")
  else if isPowerOfTwo allocation.alignment = false then
    errorResult .invalidArgument (ascii "page allocation alignment must be a power of two")
  else .ok ()

/-- The first loop of `SubmitIoBatch`. -/
def validateIoRequests : List IoRequest → Result Unit
  | [] => .ok ()
  | request :: rest =>
    if request.flags &&& ~~~kHostedKnownIoRequestFlags ≠ 0 then
      errorResult .invalidArgument (ascii "unknown I/O request flags")
    else
      match request.operation with
      | .read => validateIoRequests rest
      | .write => validateIoRequests rest
      | .flush => validateIoRequests rest
      | .unknown => errorResult .invalidArgument (ascii "unknown I/O operation")

/-- The switch of the second loop of `SubmitIoBatch`: the status, the bytes
    transferred, and the device and the memory afterwards; `none` is the early
    return of its default case. -/
def executeIoRequest (device : MemoryBlockDevice) (memory : Memory) (request : IoRequest) :
    Option (Result Unit × Nat × MemoryBlockDevice × Memory) :=
  let length := effectiveRequestLength request
  match request.operation with
  | .read =>
    match validateBufferedIoRequest request length with
    | .error st => some (.error st, 0, device, memory)
    | .ok _ =>
      match device.read memory request.offset request.buffer.data length with
      | (.error st, memory) => some (.error st, 0, device, memory)
      | (.ok _, memory) => some (.ok (), length, device, memory)
  | .write =>
    match validateBufferedIoRequest request length with
    | .error st => some (.error st, 0, device, memory)
    | .ok _ =>
      match device.write memory request.offset request.buffer.data length with
      | (.error st, device) => some (.error st, 0, device, memory)
      | (.ok _, device) => some (.ok (), length, device, memory)
  | .flush =>
    if length > kHostedMaxIoRequestSize then
      some (errorResult .invalidArgument (ascii "flush request exceeds hosted maximum size"), 0,
        device, memory)
    else some (device.flush request.offset length, 0, device, memory)
  | .unknown => none

/-- The second loop of `SubmitIoBatch` from the request at `index` on. -/
def HostedPlatformRuntime.executeIoRequests (runtime : HostedPlatformRuntime) (memory : Memory)
    (submission : IoSubmissionResult) (index : Nat) :
    List IoRequest → Result IoSubmissionResult × HostedPlatformRuntime × Memory
  | [] => (.ok submission, runtime, memory)
  | request :: rest =>
    let requestId := if request.id = 0 then runtime.nextIoRequestId else request.id
    let runtime :=
      if request.id = 0 then
        { runtime with nextIoRequestId := (runtime.nextIoRequestId + 1) % 2 ^ 64 }
      else runtime
    let submission :=
      if index = 0 then { submission with firstRequestId := requestId } else submission
    match runtime.blockDevice with
    | none =>
      let completion : IoCompletion :=
        { id := requestId
          status := errorResult .notSupported (ascii "hosted runtime has no block device")
          bytesTransferred := 0
          userData := request.userData }
      { runtime with completions := runtime.completions ++ [completion] }.executeIoRequests
        memory submission (index + 1) rest
    | some device =>
      match executeIoRequest device memory request with
      | none => (errorResult .invalidArgument (ascii "unknown I/O operation"), runtime, memory)
      | some (status, bytesTransferred, device, memory) =>
        let completion : IoCompletion :=
          { id := requestId, status, bytesTransferred, userData := request.userData }
        { runtime with
          blockDevice := some device
          completions := runtime.completions ++ [completion] }.executeIoRequests
            memory submission (index + 1) rest

/-- `HostedPlatformRuntime::SubmitIoBatch`; the free slots are counted in
    `std::size_t`. -/
def HostedPlatformRuntime.submitIoBatch (runtime : HostedPlatformRuntime) (memory : Memory)
    (requests : List IoRequest) :
    Result IoSubmissionResult × HostedPlatformRuntime × Memory :=
  if requests = [] then
    (errorResult .invalidArgument (ascii "I/O batch must be non-empty"), runtime, memory)
  else if requests.length > kHostedMaxIoBatchSize then
    (errorResult .invalidArgument (ascii "I/O batch exceeds hosted maximum batch size"), runtime,
      memory)
  else if requests.length
      > (kHostedMaxOutstandingIo + 2 ^ 64 - runtime.completions.length) % 2 ^ 64 then
    (errorResult .ioError (ascii "hosted I/O completion queue is full"), runtime, memory)
  else
    match validateIoRequests requests with
    | .error st => (.error st, runtime, memory)
    | .ok _ =>
      runtime.executeIoRequests memory { submittedCount := requests.length } 0 requests

/-- The loop of `PollIoCompletions` with `room` places left in the output. -/
def pollCompletions : Nat → List IoCompletion → List IoCompletion × List IoCompletion
  | room + 1, completion :: queue =>
    (completion :: (pollCompletions room queue).1, (pollCompletions room queue).2)
  | _, queue => ([], queue)

/-- `HostedPlatformRuntime::PollIoCompletions` with an output span of `size`
    completions; what it writes to the front of the span is the result. -/
def HostedPlatformRuntime.pollIoCompletions (runtime : HostedPlatformRuntime) (size : Nat) :
    Result (List IoCompletion) × HostedPlatformRuntime :=
  if size = 0 then
    (errorResult .invalidArgument (ascii "completion output span must be non-empty"), runtime)
  else
    (.ok (pollCompletions size runtime.completions).1,
      { runtime with completions := (pollCompletions size runtime.completions).2 })

end MattSql
