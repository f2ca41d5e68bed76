import MattSql.BatchedIoProofs
import MattSql.Library.WriteLogProofs

/-! # The memory block device

    `storage/memory_block_device.cpp` over whole runs of reads, writes and
    flushes.  Between two calls the caller does with its memory what it likes,
    so every call brings the memory it finds.

    The device replays the log of the writes that succeeded
    (`MemoryBlockDevice.Follows`), which is kept by every call;
    `block_device_run` reads off it what each call does. -/

namespace MattSql

open ByteSpan WriteLog

/-! ## Calls -/

inductive DeviceOperation where
  | read
  | write
  | flush
  deriving DecidableEq

/-- A call with the memory of its caller; a flush takes no buffer. -/
structure DeviceCall where
  operation : DeviceOperation
  memory : Memory
  offset : Nat
  data : Nat := 0
  length : Nat

/-- The status, and the memory the caller has then. -/
structure DeviceReply where
  status : Result Unit
  memory : Memory

def deviceStep (device : MemoryBlockDevice) (call : DeviceCall) :
    DeviceReply × MemoryBlockDevice :=
  match call.operation with
  | .read =>
    let (status, memory) := device.read call.memory call.offset call.data call.length
    (⟨status, memory⟩, device)
  | .write =>
    let (status, device) := device.write call.memory call.offset call.data call.length
    (⟨status, call.memory⟩, device)
  | .flush => (⟨device.flush call.offset call.length, call.memory⟩, device)

/-- What a write puts on the device. -/
def DeviceCall.entry (call : DeviceCall) : Entry UInt8 :=
  ⟨call.offset, call.memory.load call.data call.length⟩

/-- The log of the writes that succeeded, the newest first. -/
def trackWrites (log : List (Entry UInt8)) : DeviceCall × DeviceReply → List (Entry UInt8)
  | (call, reply) =>
    if call.operation = .write ∧ reply.status = .ok () then call.entry :: log else log

def writesOf (device : MemoryBlockDevice) (calls : List DeviceCall) : List (Entry UInt8) :=
  (Run.trace deviceStep device calls).foldl trackWrites []

/-! ## The promise -/

/-- A device can have this size in blocks of this size. -/
structure ValidGeometry (sizeBytes blockSize : Nat) : Prop where
  blocks : 0 < blockSize
  bytes : 0 < sizeBytes
  whole : blockSize ∣ sizeBytes

/-- What a call does behind the writes of a log. -/
structure DeviceCall.Answered (call : DeviceCall) (sizeBytes blockSize : Nat)
    (log : List (Entry UInt8)) (reply : DeviceReply) (before after : MemoryBlockDevice) :
    Prop where
  /-- Which calls succeed; the sum does not wrap. -/
  succeeds : reply.status = .ok () ↔ ValidGeometry sizeBytes blockSize
    ∧ blockSize ∣ call.offset ∧ blockSize ∣ call.length ∧ call.offset + call.length ≤ sizeBytes
  /-- A call that fails changes nothing. -/
  failed : reply.status ≠ .ok () → after = before ∧ reply.memory = call.memory
  /-- A read finds what was written last, or zero. -/
  read : call.operation = .read → reply.status = .ok () →
    ∀ i < call.length, reply.memory (call.data + i) = latest 0 log (call.offset + i)
  /-- Only a read changes memory, and only its buffer. -/
  memory : ∀ address, (call.operation = .read →
    address < call.data ∨ call.data + call.length ≤ address) →
    reply.memory address = call.memory address
  /-- Only a write changes the device. -/
  device : call.operation ≠ .write → after = before

/-- The device of a geometry replays its log. -/
structure MemoryBlockDevice.Follows (device : MemoryBlockDevice) (sizeBytes blockSize : Nat)
    (log : List (Entry UInt8)) : Prop where
  valid : device.valid = true ↔ ValidGeometry sizeBytes blockSize
  blockSize : device.blockSize = blockSize
  sizeBytes : device.valid = true → device.sizeBytes = sizeBytes
  replays : Replays 0 device.data log

theorem MemoryBlockDevice.ofSize_follows (sizeBytes blockSize : Nat) (hfits : blockSize < 2 ^ 64)
    (hsize : sizeBytes < 2 ^ 64) :
    (MemoryBlockDevice.ofSize sizeBytes blockSize hfits).Follows sizeBytes blockSize [] := by
  rw [MemoryBlockDevice.ofSize]
  split
  · rename_i hbad
    refine ⟨iff_of_false nofun fun hvalid => ?_, rfl, nofun, nofun⟩
    rcases hbad with hblocks | hbytes | hwhole | hlarge
    · exact Nat.ne_of_gt hvalid.blocks hblocks
    · exact Nat.ne_of_gt hvalid.bytes hbytes
    · exact hwhole (Nat.mod_eq_zero_of_dvd hvalid.whole)
    · omega
  · rename_i hgood
    simp only [not_or, not_not] at hgood
    obtain ⟨hblocks, hbytes, hwhole, -⟩ := hgood
    exact ⟨iff_of_true rfl ⟨Nat.pos_of_ne_zero hblocks, Nat.pos_of_ne_zero hbytes,
      Nat.dvd_of_mod_eq_zero hwhole⟩, rfl, fun _ => List.length_replicate, replays_blank 0 _⟩

/-! ## One call -/

variable {device : MemoryBlockDevice} {sizeBytes blockSize : Nat} {log : List (Entry UInt8)}

theorem MemoryBlockDevice.Follows.admits_iff (h : device.Follows sizeBytes blockSize log)
    (offset length : Nat) :
    device.Admits offset length ↔ ValidGeometry sizeBytes blockSize
      ∧ blockSize ∣ offset ∧ blockSize ∣ length ∧ offset + length ≤ sizeBytes := by
  constructor
  · rintro ⟨hvalid, hoffset, hlength, hinside⟩
    rw [h.blockSize] at hoffset hlength
    rw [h.sizeBytes hvalid] at hinside
    exact ⟨h.valid.mp hvalid, hoffset, hlength, hinside⟩
  · rintro ⟨hgeometry, hoffset, hlength, hinside⟩
    have hvalid := h.valid.mpr hgeometry
    rw [← h.blockSize] at hoffset hlength
    rw [← h.sizeBytes hvalid] at hinside
    exact ⟨hvalid, hoffset, hlength, hinside⟩

/-- **ONE CALL**: the device lets it through and it does its work, or it fails
    and changes nothing. -/
theorem deviceStep_cases (device : MemoryBlockDevice) (call : DeviceCall) :
    (∃ st, ¬device.Admits call.offset call.length
        ∧ deviceStep device call = (⟨.error st, call.memory⟩, device))
      ∨ device.Admits call.offset call.length
        ∧ deviceStep device call = match call.operation with
          | .read =>
            (⟨.ok (), call.memory.store call.data (slice device.data call.offset call.length)⟩,
              device)
          | .write =>
            (⟨.ok (), call.memory⟩,
              { device with data := splice device.data call.offset call.entry.cells })
          | .flush => (⟨.ok (), call.memory⟩, device) := by
  cases haccess : device.validateAccess call.offset call.length with
  | error st =>
      refine .inl ⟨st, fun hadmits => ?_, ?_⟩
      · rw [MemoryBlockDevice.validateAccess_ok_iff.mpr hadmits] at haccess
        cases haccess
      · rw [deviceStep, MemoryBlockDevice.read, MemoryBlockDevice.write, MemoryBlockDevice.flush,
          haccess]
        cases call.operation <;> rfl
  | ok done =>
      refine .inr ⟨MemoryBlockDevice.validateAccess_ok_iff.mp haccess, ?_⟩
      rw [deviceStep, MemoryBlockDevice.read, MemoryBlockDevice.write, MemoryBlockDevice.flush,
        haccess]
      cases call.operation <;> rfl

@[simp] theorem DeviceCall.length_entry (call : DeviceCall) :
    call.entry.cells.length = call.length := by
  rw [DeviceCall.entry, Memory.load, List.length_map, List.length_range]

/-- Every call keeps the device and the log together. -/
theorem deviceStep_follows (h : device.Follows sizeBytes blockSize log) (call : DeviceCall) :
    (deviceStep device call).2.Follows sizeBytes blockSize
      (trackWrites log (call, (deviceStep device call).1)) := by
  rcases deviceStep_cases device call with ⟨st, -, hstep⟩ | ⟨hadmits, hstep⟩
  · rw [hstep, trackWrites, if_neg fun hok => nomatch hok.2]
    exact h
  · rw [hstep, trackWrites]
    cases hop : call.operation with
    | read =>
        rw [if_neg fun hok => nomatch hok.1]
        exact h
    | write =>
        have hfits : call.offset + call.entry.cells.length ≤ device.data.length := by
          rw [DeviceCall.length_entry]
          exact hadmits.inside
        rw [if_pos ⟨rfl, rfl⟩]
        refine ⟨h.valid, h.blockSize, fun hvalid => ?_, h.replays.splice hfits⟩
        exact (length_splice hfits).trans (h.sizeBytes hvalid)
    | flush =>
        rw [if_neg fun hok => nomatch hok.1]
        exact h

/-- What is stored in memory is found there, and nothing else changes. -/
theorem Memory.store_eq (memory : Memory) (data : Nat) (bytes : Bytes) (address : Nat) :
    memory.store data bytes address
      = if data ≤ address ∧ address < data + bytes.length then bytes.getD (address - data) 0
        else memory address := rfl

/-- A call does what it promises. -/
theorem deviceStep_answered (h : device.Follows sizeBytes blockSize log) (call : DeviceCall) :
    call.Answered sizeBytes blockSize log (deviceStep device call).1 device
      (deviceStep device call).2 := by
  rcases deviceStep_cases device call with ⟨st, hrefused, hstep⟩ | ⟨hadmits, hstep⟩
  · rw [hstep]
    exact ⟨iff_of_false nofun (mt (h.admits_iff _ _).mpr hrefused), fun _ => ⟨rfl, rfl⟩,
      fun _ hok => (nomatch hok), fun _ _ => rfl, fun _ => rfl⟩
  · have hcondition := (h.admits_iff call.offset call.length).mp hadmits
    rw [hstep]
    cases hop : call.operation with
    | read =>
        have hfits : call.offset + call.length ≤ device.data.length := hadmits.inside
        refine ⟨iff_of_true rfl hcondition, fun hne => absurd rfl hne, fun _ _ i hi => ?_,
          fun address houtside => ?_, fun _ => rfl⟩
        · dsimp only
          rw [Memory.store_eq, length_slice_of_le hfits, if_pos ⟨by omega, by omega⟩,
            Nat.add_sub_cancel_left, h.replays.slice hfits, List.getD_eq_getElem?_getD,
            List.getElem?_map, List.getElem?_range hi]
          rfl
        · dsimp only
          rw [Memory.store_eq, length_slice_of_le hfits, if_neg]
          have := houtside hop
          omega
    | write =>
        exact ⟨iff_of_true rfl hcondition, fun hne => absurd rfl hne,
          fun hread => (nomatch hop.symm.trans hread), fun _ _ => rfl, fun hne => absurd hop hne⟩
    | flush =>
        exact ⟨iff_of_true rfl hcondition, fun hne => absurd rfl hne,
          fun hread => (nomatch hop.symm.trans hread), fun _ _ => rfl, fun _ => rfl⟩

/-! ## Whole runs -/

/-- **EVERY RUN OF A BLOCK DEVICE.**  Behind any calls on a device of any
    geometry a call succeeds exactly when the geometry is valid and its range is
    made of whole blocks inside the device; one that fails changes nothing; and a
    read finds in every byte what the latest write that succeeded put there, or
    zero. -/
theorem block_device_run (sizeBytes blockSize : UInt64) (calls : List DeviceCall)
    (call : DeviceCall) :
    let start := MemoryBlockDevice.ofSize sizeBytes.toNat blockSize.toNat blockSize.toNat_lt
    let device := Run.final deviceStep start calls
    call.Answered sizeBytes.toNat blockSize.toNat (writesOf start calls)
      (deviceStep device call).1 device (deviceStep device call).2 := by
  intro start device
  have hstart := MemoryBlockDevice.ofSize_follows sizeBytes.toNat blockSize.toNat
    blockSize.toNat_lt sizeBytes.toNat_lt
  have hrun := Run.final_refines (R := fun device log =>
      MemoryBlockDevice.Follows device sizeBytes.toNat blockSize.toNat log)
    (fun _ _ call h => deviceStep_follows h call) calls start [] hstart
  exact deviceStep_answered hrun call

/-- The second write overlaps the first; the third one is not aligned. -/
example : (Run.final deviceStep (.ofSize 4 2)
    [⟨.write, fun address => address.toUInt8, 0, 1, 4⟩, ⟨.write, fun _ => 9, 2, 0, 2⟩,
      ⟨.write, fun _ => 7, 1, 0, 2⟩]).data = [1, 2, 9, 9] := by decide

end MattSql
