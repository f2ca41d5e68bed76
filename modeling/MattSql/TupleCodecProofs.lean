import MattSql.ByteIoProofs
import MattSql.SchemaProofs

/-! # The binary tuple codec

    `storage/tuple_codec.cpp`: a record is one field after another in column
    order, each a tag byte with a payload that the tag announces.

    Encoding and decoding are two separately written loops.  Both are cut here
    into one field (`encodeField`, `decodeField`) and the loop over the columns.
    The step lemmas say that decoding a field inverts encoding it, wherever
    the field stands in the record, and that a decoded field is the encoding
    of the value it gave; the loop lemmas follow by induction over the
    columns. -/

namespace MattSql

open ByteSpan LittleEndian Fallible

/-- `FieldTag`. -/
inductive FieldTag where
  | null
  | integer
  | boolean
  | text
  deriving DecidableEq

def FieldTag.byte : FieldTag → UInt8
  | .null => 0
  | .integer => 1
  | .boolean => 2
  | .text => 3

/-- `std::numeric_limits<std::uint32_t>::max()`. -/
def kMaxU32 : Nat := 2 ^ 32 - 1

/-- One turn of the loop of `BinaryTupleCodec::Encode`: the bytes it appends
    for a column and its value. -/
def encodeField (column : ColumnSchema) (value : Value) : Result Bytes :=
  if column.type = .null then
    errorResult .invalidArgument (ascii "storage column type cannot be Null")
  else if isNull value then
    if column.nullable then .ok [FieldTag.null.byte]
    else errorResult .typeMismatch (ascii "column cannot be NULL: " ++ column.name)
  else if valueMatchesType value column.type then
    match column.type, value with
    | .integer, .integer i =>
        .ok (FieldTag.integer.byte :: appendLittleEndian [] 8 i.toUInt64.toNat)
    | .text, .text s =>
        if s.length > kMaxU32 then
          errorResult .invalidArgument (ascii "text value is too large")
        else .ok (FieldTag.text.byte :: (appendLittleEndian [] 4 s.length ++ s))
    | .boolean, .boolean b => .ok [FieldTag.boolean.byte, if b then 1 else 0]
    | _, _ => errorResult .undefined (ascii "std::get")
  else
    errorResult .typeMismatch
      (ascii "value type does not match column: " ++ column.name)

def encodeColumns : List ColumnSchema → List Value → Result Bytes
  | [], _ => .ok []
  | _ :: _, [] => errorResult .undefined (ascii "values[index]")
  | column :: columns, value :: values => do
      let field ← encodeField column value
      let fields ← encodeColumns columns values
      .ok (field ++ fields)

/-- `BinaryTupleCodec::Encode`. -/
def encode (schema : TableSchema) (values : List Value) : Result Bytes :=
  if values.length ≠ schema.columns.length then
    errorResult .invalidArgument (ascii "tuple value count does not match schema")
  else encodeColumns schema.columns values

/-- `read_byte`. -/
def readByte (record : Bytes) (offset : Nat) : Option (UInt8 × Nat) :=
  match record[offset]? with
  | none => none
  | some b => some (b, offset + 1)

/-- The bytes the text loop of `Decode` copies; `none` when it would read past
    the record. -/
def readSpan (record : Bytes) (offset length : Nat) : Option Bytes :=
  if offset + length ≤ record.length then some (slice record offset length)
  else none

def corrupt {α : Type} (message : Bytes) : Result α :=
  errorResult .corruption message

/-- The payload of a field whose tag byte is not NULL, in the column-type
    `switch` of `Decode`. -/
def decodePayload (type : SqlType) (tag : UInt8) (record : Bytes) (offset : Nat) :
    Result (Value × Nat) :=
  match type with
  | .integer =>
      if tag ≠ FieldTag.integer.byte then corrupt (ascii "tuple field type mismatch")
      else match readLittleEndian 8 record offset with
        | none => corrupt (ascii "tuple integer is truncated")
        | some (encoded, offset) =>
            .ok (.integer (UInt64.ofNat encoded).toInt64, offset)
  | .text =>
      if tag ≠ FieldTag.text.byte then corrupt (ascii "tuple field type mismatch")
      else match readLittleEndian 4 record offset with
        | none => corrupt (ascii "tuple text is truncated")
        | some (length, offset) =>
            if record.length - offset < length then
              corrupt (ascii "tuple text is truncated")
            else match readSpan record offset length with
              | none => errorResult .undefined (ascii "record.bytes[offset + index]")
              | some s => .ok (.text s, offset + length)
  | .boolean =>
      if tag ≠ FieldTag.boolean.byte then corrupt (ascii "tuple field type mismatch")
      else match readByte record offset with
        | none => corrupt (ascii "tuple boolean is invalid")
        | some (b, offset) =>
            if b > 1 then corrupt (ascii "tuple boolean is invalid")
            else .ok (.boolean (b = 1), offset)
  | .null => .ok (.null, offset)

/-- One turn of the loop of `BinaryTupleCodec::Decode`. -/
def decodeField (column : ColumnSchema) (record : Bytes) (offset : Nat) :
    Result (Value × Nat) :=
  if column.type = .null then corrupt (ascii "storage column type cannot be Null")
  else match readByte record offset with
    | none => corrupt (ascii "tuple record is truncated")
    | some (tag, offset) =>
        if tag = FieldTag.null.byte then
          if column.nullable then .ok (.null, offset)
          else corrupt (ascii "non-nullable column stored NULL: " ++ column.name)
        else decodePayload column.type tag record offset

def decodeColumns : List ColumnSchema → Bytes → Nat → Result (List Value × Nat)
  | [], _, offset => .ok ([], offset)
  | column :: columns, record, offset => do
      let (value, offset) ← decodeField column record offset
      let (values, offset) ← decodeColumns columns record offset
      .ok (value :: values, offset)

/-- `BinaryTupleCodec::Decode`. -/
def decode (schema : TableSchema) (record : Bytes) : Result (List Value) := do
  let (values, offset) ← decodeColumns schema.columns record 0
  if offset ≠ record.length then corrupt (ascii "tuple record has trailing bytes")
  else .ok values

/-! ## One field

    `FieldFits` says which values a column takes and `fieldBytes` how a value
    is laid out.  Both loops are specified through these two. -/

/-- The values a stored column takes: NULL where it is nullable, else a value
    of its type, text below `2 ^ 32` bytes. -/
def FieldFits (column : ColumnSchema) : Value → Prop
  | .null => column.nullable = true
  | .integer _ => column.type = .integer
  | .boolean _ => column.type = .boolean
  | .text s => column.type = .text ∧ s.length < 2 ^ 32

/-- The layout of a value: its tag, then its payload. -/
def fieldBytes : Value → Bytes
  | .null => [FieldTag.null.byte]
  | .integer i => FieldTag.integer.byte :: wordBytes 8 i.toUInt64.toNat
  | .boolean b => [FieldTag.boolean.byte, if b then 1 else 0]
  | .text s => FieldTag.text.byte :: (wordBytes 4 s.length ++ s)

private theorem matches_iff (v : Value) (t : SqlType) :
    valueMatchesType v t = true ↔ t = valueTypeOf v := by
  rw [valueMatchesType, decide_eq_true_iff]
  exact eq_comm

/-- NULL is accepted where the column is nullable. -/
private theorem encodeField_null {column : ColumnSchema} (hc : column.type ≠ .null)
    (field : Bytes) :
    encodeField column .null = .ok field
      ↔ FieldFits column .null ∧ field = fieldBytes .null := by
  unfold encodeField
  rw [if_neg hc, if_pos (by rfl)]
  by_cases hn : column.nullable = true
  · rw [if_pos hn]
    constructor
    · intro h
      cases h
      exact ⟨hn, rfl⟩
    · rintro ⟨-, rfl⟩
      rfl
  · rw [if_neg hn]
    constructor
    · intro h
      exact nomatch h
    · rintro ⟨h, -⟩
      exact absurd h hn

/-- A value of another type than the column's is refused. -/
private theorem encodeField_refused {column : ColumnSchema} (value : Value)
    (hc : column.type ≠ .null) (hn : isNull value = false)
    (ht : ¬ column.type = valueTypeOf value)
    (hfit : FieldFits column value → column.type = valueTypeOf value)
    (field : Bytes) :
    encodeField column value = .ok field
      ↔ FieldFits column value ∧ field = fieldBytes value := by
  unfold encodeField
  rw [if_neg hc, hn, if_neg Bool.false_ne_true,
    if_neg (fun h => ht ((matches_iff _ _).mp h))]
  constructor
  · intro h
    exact nomatch h
  · rintro ⟨h, -⟩
    exact absurd (hfit h) ht

/-- A column accepts exactly the values that fit it, in their layout. -/
theorem encodeField_ok_iff {column : ColumnSchema} (hc : column.type ≠ .null)
    (value : Value) (field : Bytes) :
    encodeField column value = .ok field
      ↔ FieldFits column value ∧ field = fieldBytes value := by
  cases value with
  | null => exact encodeField_null hc field
  | integer i =>
      by_cases ht : column.type = .integer
      · unfold encodeField
        rw [if_neg hc, if_neg (by simp [isNull]), if_pos ((matches_iff _ _).mpr ht), ht]
        constructor
        · intro h
          cases h
          exact ⟨ht, rfl⟩
        · rintro ⟨-, rfl⟩
          rfl
      · exact encodeField_refused (.integer i) hc rfl ht (fun h => h) field
  | boolean b =>
      by_cases ht : column.type = .boolean
      · unfold encodeField
        rw [if_neg hc, if_neg (by simp [isNull]), if_pos ((matches_iff _ _).mpr ht), ht]
        constructor
        · intro h
          cases h
          exact ⟨ht, rfl⟩
        · rintro ⟨-, rfl⟩
          rfl
      · exact encodeField_refused (.boolean b) hc rfl ht (fun h => h) field
  | text s =>
      by_cases ht : column.type = .text
      · unfold encodeField
        rw [if_neg hc, if_neg (by simp [isNull]), if_pos ((matches_iff _ _).mpr ht), ht]
        show (if s.length > kMaxU32 then _ else _) = _ ↔ _
        rw [kMaxU32]
        -- only a text has a bound of its own
        by_cases hs : s.length > 2 ^ 32 - 1
        · rw [if_pos hs]
          constructor
          · intro h
            cases h
          · rintro ⟨⟨-, hlt⟩, -⟩
            omega
        · rw [if_neg hs]
          constructor
          · intro h
            cases h
            exact ⟨⟨ht, by omega⟩, rfl⟩
          · rintro ⟨-, rfl⟩
            rfl
      · exact encodeField_refused (.text s) hc rfl ht (fun h => h.1) field

theorem readByte_iff {record : Bytes} {offset next : Nat} {b : UInt8} :
    readByte record offset = some (b, next)
      ↔ record[offset]? = some b ∧ next = offset + 1 := by
  rw [readByte]
  cases record[offset]? with
  | none => simp
  | some c =>
      constructor
      · intro h
        cases h
        exact ⟨rfl, rfl⟩
      · rintro ⟨h, rfl⟩
        cases h
        rfl

/-- A decoded payload: the value has the column's type and its layout is the
    tag with what stands at the offset. -/
def PayloadAt (type : SqlType) (tag : UInt8) (record : Bytes) (offset : Nat)
    (value : Value) (next : Nat) : Prop :=
  valueTypeOf value = type ∧ (∀ s, value = .text s → s.length < 2 ^ 32) ∧
    ∃ payload, fieldBytes value = tag :: payload ∧ Holds record offset payload
      ∧ next = offset + payload.length

private theorem decodePayload_integer {tag : UInt8} {record : Bytes}
    {offset next : Nat} {value : Value} :
    decodePayload .integer tag record offset = .ok (value, next)
      ↔ PayloadAt .integer tag record offset value next := by
  unfold decodePayload
  constructor
  · intro h
    simp only at h
    split at h
    · exact nomatch h
    · rename_i htag
      split at h
      · exact nomatch h
      · rename_i encoded next' hread
        cases h
        obtain ⟨hlt, hh, hnext⟩ := (readLittleEndian_iff (by decide)).mp hread
        -- the two's complement goes there and back
        have hback : ((UInt64.ofNat encoded).toInt64).toUInt64.toNat = encoded := by
          rw [UInt64.toUInt64_toInt64]
          exact UInt64.toNat_ofNat_of_lt' hlt
        refine ⟨rfl, nofun, wordBytes 8 encoded, ?_, hh, ?_⟩
        · show FieldTag.integer.byte :: _ = _
          rw [hback, not_not.mp htag]
        · rw [length_wordBytes]
          exact hnext
  · rintro ⟨hty, -, payload, hf, hh, rfl⟩
    cases value with
    | integer i =>
        cases hf
        have hread : readLittleEndian 8 record offset
            = some (i.toUInt64.toNat, offset + 8) :=
          (readLittleEndian_iff (by decide)).mpr ⟨i.toUInt64.toNat_lt, hh, rfl⟩
        simp [hread]
    | _ => exact nomatch hty

private theorem decodePayload_text {tag : UInt8} {record : Bytes}
    {offset next : Nat} {value : Value} :
    decodePayload .text tag record offset = .ok (value, next)
      ↔ PayloadAt .text tag record offset value next := by
  unfold decodePayload
  constructor
  · intro h
    simp only at h
    split at h
    · exact nomatch h
    · rename_i htag
      split at h
      · exact nomatch h
      · rename_i length offset' hread
        split at h
        · exact nomatch h
        · rename_i hroom
          split at h
          · exact nomatch h
          · rename_i s hspan
            cases h
            obtain ⟨hlt, hh, rfl⟩ := (readLittleEndian_iff (by decide)).mp hread
            have hle := hh.le (by simp [wordBytes])
            rw [length_wordBytes] at hle
            -- the length was checked against the bytes left, so the span is inside
            have hfit : offset + 4 + length ≤ record.length := by omega
            rw [readSpan, if_pos hfit] at hspan
            cases hspan
            have hlen := length_slice_of_le hfit
            refine ⟨rfl, ?_, wordBytes 4 length ++ slice record (offset + 4) length,
              ?_, ?_, ?_⟩
            · intro s hs
              cases hs
              rw [hlen]
              exact hlt
            · show FieldTag.text.byte :: _ = _
              rw [hlen, not_not.mp htag]
            · refine holds_append.mpr ⟨hh, ?_⟩
              rw [length_wordBytes]
              exact holds_slice hfit
            · rw [List.length_append, length_wordBytes, hlen, Nat.add_assoc]
  · rintro ⟨hty, hs, payload, hf, hh, rfl⟩
    cases value with
    | text s =>
        cases hf
        obtain ⟨hword, htext⟩ := holds_append.mp hh
        rw [length_wordBytes] at htext
        have hread : readLittleEndian 4 record offset
            = some (s.length, offset + 4) :=
          (readLittleEndian_iff (by decide)).mpr ⟨hs s rfl, hword, rfl⟩
        have hle : offset + 4 + s.length ≤ record.length := by
          have h1 := hword.le (by simp [wordBytes])
          rw [length_wordBytes] at h1
          cases s with
          | nil => exact h1
          | cons c cs => exact htext.le (by simp)
        have hspan : readSpan record (offset + 4) s.length = some s := by
          rw [readSpan, if_pos hle]
          exact congrArg some htext
        have hroom : ¬ record.length - (offset + 4) < s.length := by omega
        simp [hread, hspan, hroom, Nat.add_assoc]
    | _ => exact nomatch hty

private theorem decodePayload_boolean {tag : UInt8} {record : Bytes}
    {offset next : Nat} {value : Value} :
    decodePayload .boolean tag record offset = .ok (value, next)
      ↔ PayloadAt .boolean tag record offset value next := by
  unfold decodePayload
  constructor
  · intro h
    simp only at h
    split at h
    · exact nomatch h
    · rename_i htag
      split at h
      · exact nomatch h
      · rename_i b next' hread
        split at h
        · exact nomatch h
        · rename_i hb
          cases h
          obtain ⟨hget, rfl⟩ := readByte_iff.mp hread
          -- only 0 and 1 pass the check, so the byte is the one the value encodes to
          have hbit : (if (b = 1 : Bool) then 1 else 0) = b := by
            have hle : b.toNat ≤ 1 := UInt8.le_iff_toNat_le.mp (UInt8.not_lt.mp hb)
            apply UInt8.toNat_inj.mp
            by_cases h1 : b = 1
            · subst h1
              rfl
            · have : b.toNat ≠ 1 := fun h => h1 (UInt8.toNat_inj.mp h)
              simp only [h1]
              show 0 = b.toNat
              omega
          refine ⟨rfl, nofun, [b], ?_, ?_, rfl⟩
          · show [FieldTag.boolean.byte, _] = _
            rw [not_not.mp htag, hbit]
          · exact holds_cons.mpr ⟨hget, holds_nil _ _⟩
  · rintro ⟨hty, -, payload, hf, hh, rfl⟩
    cases value with
    | boolean b =>
        cases hf
        obtain ⟨hget, -⟩ := holds_cons.mp hh
        have hread : readByte record offset
            = some (if b then 1 else 0, offset + 1) := readByte_iff.mpr ⟨hget, rfl⟩
        cases b <;> simp [hread]
    | _ => exact nomatch hty

/-- The payload `switch` decodes exactly the layouts of the column's type. -/
theorem decodePayload_ok_iff {type : SqlType} (hc : type ≠ .null) {tag : UInt8}
    {record : Bytes} {offset next : Nat} {value : Value} :
    decodePayload type tag record offset = .ok (value, next)
      ↔ PayloadAt type tag record offset value next := by
  cases type with
  | integer => exact decodePayload_integer
  | text => exact decodePayload_text
  | boolean => exact decodePayload_boolean
  | null => exact absurd rfl hc

/-- No branch of the `switch` reads outside the record: its failures are all
    `Corruption`. -/
theorem decodePayload_error {type : SqlType} {tag : UInt8} {record : Bytes}
    {offset : Nat} {st : Status}
    (h : decodePayload type tag record offset = .error st) :
    st.code = .corruption := by
  cases type with
  | integer =>
      simp only [decodePayload] at h
      split at h
      · cases h
        rfl
      · split at h
        · cases h
          rfl
        · exact nomatch h
  | text =>
      simp only [decodePayload] at h
      split at h
      · cases h
        rfl
      · split at h
        · cases h
          rfl
        · rename_i length offset' hread
          split at h
          · cases h
            rfl
          · rename_i hroom
            -- the length check has just been passed
            obtain ⟨-, hh, rfl⟩ := (readLittleEndian_iff (by decide)).mp hread
            have hle := hh.le (by simp [wordBytes])
            rw [length_wordBytes] at hle
            rw [readSpan, if_pos (by omega)] at h
            exact nomatch h
  | boolean =>
      simp only [decodePayload] at h
      split at h
      · cases h
        rfl
      · split at h
        · cases h
          rfl
        · split at h
          · cases h
            rfl
          · exact nomatch h
  | null => exact nomatch h

/-- A column decodes exactly the layouts of the values that fit it. -/
theorem decodeField_ok_iff {column : ColumnSchema} (hc : column.type ≠ .null)
    {record : Bytes} {offset next : Nat} {value : Value} :
    decodeField column record offset = .ok (value, next)
      ↔ FieldFits column value ∧ Holds record offset (fieldBytes value)
        ∧ next = offset + (fieldBytes value).length := by
  rw [decodeField]
  rw [if_neg hc]
  constructor
  · intro h
    split at h
    · exact nomatch h
    · rename_i tag offset' hread
      obtain ⟨hget, rfl⟩ := readByte_iff.mp hread
      split at h
      · rename_i htag
        split at h
        · rename_i hn
          cases h
          exact ⟨hn, holds_cons.mpr ⟨by rw [hget, htag], holds_nil _ _⟩, rfl⟩
        · exact nomatch h
      · obtain ⟨hty, hs, payload, hf, hh, rfl⟩ := (decodePayload_ok_iff hc).mp h
        rw [hf, List.length_cons]
        refine ⟨?_, holds_cons.mpr ⟨hget, hh⟩, by omega⟩
        cases value with
        | null => exact absurd hty.symm hc
        | integer i => exact hty.symm
        | boolean b => exact hty.symm
        | text s => exact ⟨hty.symm, hs s rfl⟩
  · rintro ⟨hfit, hh, rfl⟩
    -- the tag byte stands first, so the read of it succeeds
    obtain ⟨tag, payload, hf⟩ : ∃ tag payload, fieldBytes value = tag :: payload := by
      cases value <;> exact ⟨_, _, rfl⟩
    rw [hf] at hh
    obtain ⟨hget, hpay⟩ := holds_cons.mp hh
    have hread : readByte record offset = some (tag, offset + 1) :=
      readByte_iff.mpr ⟨hget, rfl⟩
    rw [hread]
    by_cases hnull : value = .null
    · subst hnull
      cases hf
      have hn : column.nullable = true := hfit
      simp [hn, fieldBytes]
    · have htag : tag ≠ FieldTag.null.byte := by
        cases value with
        | null => exact absurd rfl hnull
        | integer i => cases hf; decide
        | boolean b => cases hf; decide
        | text s => cases hf; decide
      show (if tag = FieldTag.null.byte then _ else _) = _
      rw [if_neg htag, decodePayload_ok_iff hc, hf, List.length_cons]
      refine ⟨?_, ?_, payload, hf, hpay, by omega⟩
      · cases value with
        | null => exact absurd rfl hnull
        | integer i => exact Eq.symm hfit
        | boolean b => exact Eq.symm hfit
        | text s => exact hfit.1.symm
      · rintro s rfl
        exact hfit.2

/-- Decoding a field fails with `Corruption` or not at all. -/
theorem decodeField_error {column : ColumnSchema} {record : Bytes} {offset : Nat}
    {st : Status} (h : decodeField column record offset = .error st) :
    st.code = .corruption := by
  rw [decodeField] at h
  split at h
  · cases h
    rfl
  · split at h
    · cases h
      rfl
    · split at h
      · split at h
        · exact nomatch h
        · cases h
          rfl
      · exact decodePayload_error h

/-! ## The loop over the columns -/

/-- The layout of a row: its fields in column order. -/
def rowBytes (values : List Value) : Bytes :=
  (values.map fieldBytes).flatten

private theorem rowBytes_cons (v : Value) (vs : List Value) :
    rowBytes (v :: vs) = fieldBytes v ++ rowBytes vs := by
  rw [rowBytes, List.map_cons, List.flatten_cons, rowBytes]

/-- Every column of the schema is storable. -/
def Storable (columns : List ColumnSchema) : Prop :=
  ∀ c ∈ columns, c.type ≠ .null

theorem encodeColumns_ok_iff {columns : List ColumnSchema} (hc : Storable columns)
    {values : List Value} (hlen : values.length = columns.length) {record : Bytes} :
    encodeColumns columns values = .ok record
      ↔ List.Forall₂ FieldFits columns values ∧ record = rowBytes values := by
  induction columns generalizing values record with
  | nil =>
      cases List.length_eq_zero_iff.mp hlen
      constructor
      · intro h
        cases h
        exact ⟨.nil, rfl⟩
      · rintro ⟨-, rfl⟩
        rfl
  | cons c cs ih =>
      obtain ⟨v, vs, rfl⟩ := List.exists_cons_of_length_eq_add_one hlen
      have hcs : Storable cs := fun d hd => hc d (List.mem_cons_of_mem _ hd)
      have hvs : vs.length = cs.length := by simpa using hlen
      rw [encodeColumns, bind_ok_iff, List.forall₂_cons, rowBytes_cons]
      constructor
      · rintro ⟨field, hfield, h⟩
        obtain ⟨hfit, rfl⟩ := (encodeField_ok_iff (hc c List.mem_cons_self) v field).mp hfield
        obtain ⟨fields, hfields, h⟩ := bind_ok_iff.mp h
        obtain ⟨hfits, rfl⟩ := (ih hcs hvs).mp hfields
        cases h
        exact ⟨⟨hfit, hfits⟩, rfl⟩
      · rintro ⟨⟨hfit, hfits⟩, rfl⟩
        refine ⟨fieldBytes v,
          (encodeField_ok_iff (hc c List.mem_cons_self) v _).mpr ⟨hfit, rfl⟩, ?_⟩
        rw [(ih hcs hvs).mpr ⟨hfits, rfl⟩]
        rfl

theorem decodeColumns_ok_iff {columns : List ColumnSchema} (hc : Storable columns)
    {record : Bytes} {offset next : Nat} {values : List Value} :
    decodeColumns columns record offset = .ok (values, next)
      ↔ List.Forall₂ FieldFits columns values ∧ Holds record offset (rowBytes values)
        ∧ next = offset + (rowBytes values).length := by
  induction columns generalizing offset values next with
  | nil =>
      constructor
      · intro h
        cases h
        exact ⟨.nil, holds_nil _ _, rfl⟩
      · rintro ⟨h, -, rfl⟩
        cases h
        rfl
  | cons c cs ih =>
      have hcs : Storable cs := fun d hd => hc d (List.mem_cons_of_mem _ hd)
      rw [decodeColumns, bind_ok_iff]
      constructor
      · rintro ⟨⟨v, offset'⟩, hfield, h⟩
        obtain ⟨hfit, hh, rfl⟩ := (decodeField_ok_iff (hc c List.mem_cons_self)).mp hfield
        obtain ⟨⟨vs, offset''⟩, hfields, h⟩ := bind_ok_iff.mp h
        obtain ⟨hfits, hhs, rfl⟩ := (ih hcs).mp hfields
        cases h
        rw [rowBytes_cons, List.length_append]
        exact ⟨.cons hfit hfits, holds_append.mpr ⟨hh, hhs⟩, by omega⟩
      · rintro ⟨hfits, hh, rfl⟩
        cases hfits with
        | @cons _ v _ vs hfit hfits =>
            rw [rowBytes_cons] at hh ⊢
            obtain ⟨hhead, htail⟩ := holds_append.mp hh
            refine ⟨(v, offset + (fieldBytes v).length),
              (decodeField_ok_iff (hc c List.mem_cons_self)).mpr ⟨hfit, hhead, rfl⟩, ?_⟩
            show (decodeColumns cs record (offset + (fieldBytes v).length) >>= _) = _
            rw [(ih hcs).mpr ⟨hfits, htail, rfl⟩, List.length_append, Nat.add_assoc]
            rfl

theorem decodeColumns_error {columns : List ColumnSchema} {record : Bytes}
    {offset : Nat} {st : Status}
    (h : decodeColumns columns record offset = .error st) :
    st.code = .corruption := by
  induction columns generalizing offset with
  | nil => exact nomatch h
  | cons c cs ih =>
      rcases bind_error_iff.mp h with h | ⟨⟨v, offset'⟩, -, h⟩
      · exact decodeField_error h
      · rcases bind_error_iff.mp h with h | ⟨_, -, h⟩
        · exact ih h
        · exact nomatch h

/-! ## The codec -/

/-- Encoding succeeds exactly on the rows whose values fit their columns, and
    lays them out field by field. -/
theorem encode_ok_iff {schema : TableSchema} (hc : Storable schema.columns)
    (values : List Value) (record : Bytes) :
    encode schema values = .ok record
      ↔ List.Forall₂ FieldFits schema.columns values ∧ record = rowBytes values := by
  rw [encode]
  by_cases hlen : values.length ≠ schema.columns.length
  · rw [if_pos hlen]
    constructor
    · intro h
      exact nomatch h
    · rintro ⟨h, -⟩
      exact absurd h.length_eq.symm hlen
  · rw [if_neg hlen]
    exact encodeColumns_ok_iff hc (not_not.mp hlen)

theorem decode_ok_iff {schema : TableSchema} (hc : Storable schema.columns)
    (record : Bytes) (values : List Value) :
    decode schema record = .ok values
      ↔ List.Forall₂ FieldFits schema.columns values ∧ record = rowBytes values := by
  rw [decode]
  rw [bind_ok_iff]
  constructor
  · rintro ⟨⟨vs, offset⟩, hcols, h⟩
    obtain ⟨hfits, hh, rfl⟩ := (decodeColumns_ok_iff hc).mp hcols
    dsimp only at h
    split at h
    · exact nomatch h
    · rename_i hend
      cases h
      refine ⟨hfits, (holds_zero_iff.mp ⟨hh, ?_⟩).symm⟩
      omega
  · rintro ⟨hfits, rfl⟩
    obtain ⟨hh, -⟩ := holds_zero_iff.mpr (rfl : rowBytes values = rowBytes values)
    refine ⟨(values, 0 + (rowBytes values).length),
      (decodeColumns_ok_iff hc).mpr ⟨hfits, hh, rfl⟩, ?_⟩
    simp

/-- A record that does not decode is reported as `Corruption`. -/
theorem decode_error {schema : TableSchema} {record : Bytes} {st : Status}
    (h : decode schema record = .error st) : st.code = .corruption := by
  rcases bind_error_iff.mp h with h | ⟨⟨vs, offset⟩, -, h⟩
  · exact decodeColumns_error h
  · dsimp only at h
    split at h
    · cases h
      rfl
    · exact nomatch h

/-- **CODEC EXACTNESS**: over storable columns, decoding is the inverse of
    encoding in both directions; bytes that encode no row are `Corruption`,
    found without a read outside the record; and a row encodes exactly when
    each column has a value of its type, or NULL where it is nullable. -/
theorem tupleCodec_exact (schema : TableSchema)
    (hc : ∀ c ∈ schema.columns,
      c.type = .integer ∨ c.type = .text ∨ c.type = .boolean)
    (values : List Value) (record : Bytes) :
    (decode schema record = .ok values ↔ encode schema values = .ok record)
    ∧ ((∀ row, encode schema row ≠ .ok record) →
        ∃ message, decode schema record = .error ⟨.corruption, message⟩)
    ∧ statusCode (decode schema record) ≠ some .undefined
    ∧ ((∃ bytes, encode schema values = .ok bytes)
        ↔ List.Forall₂ FieldFits schema.columns values) := by
  have hst : Storable schema.columns := by
    intro c hmem ht
    rcases hc c hmem with h | h | h <;> exact nomatch h.symm.trans ht
  -- both sides say that the record is the layout of a row that fits
  have hiff : ∀ row, decode schema record = .ok row ↔ encode schema row = .ok record :=
    fun row => (decode_ok_iff hst record row).trans (encode_ok_iff hst row record).symm
  refine ⟨hiff values, ?_, ?_, ?_⟩
  · intro hnone
    cases hd : decode schema record with
    | ok row => exact absurd ((hiff row).mp hd) (hnone row)
    | error st =>
        obtain ⟨code, message⟩ := st
        have hcode : code = .corruption := decode_error hd
        exact ⟨message, by rw [hcode]⟩
  · cases hd : decode schema record with
    | ok row => exact nofun
    | error st =>
        have hcode := decode_error hd
        simp [statusCode, hcode]
  · constructor
    · rintro ⟨bytes, h⟩
      exact ((encode_ok_iff hst values bytes).mp h).1
    · intro h
      exact ⟨rowBytes values, (encode_ok_iff hst values _).mpr ⟨h, rfl⟩⟩

/-- The exactness theorem at a three-column schema and a row with a NULL. -/
theorem tupleCodec_exact_three_columns :
    let schema : TableSchema :=
      ⟨[⟨ascii "id", .integer, false, 0⟩, ⟨ascii "name", .text, true, 1⟩,
        ⟨ascii "active", .boolean, true, 2⟩]⟩
    let row : List Value := [.integer (-1), .null, .boolean true]
    (∀ c ∈ schema.columns,
      c.type = .integer ∨ c.type = .text ∨ c.type = .boolean)
    ∧ encode schema row = .ok [1, 255, 255, 255, 255, 255, 255, 255, 255, 0, 2, 1]
    ∧ decode schema [1, 255, 255, 255, 255, 255, 255, 255, 255, 0, 2, 1] = .ok row := by
  refine ⟨by decide, by decide, ?_⟩
  exact (tupleCodec_exact _ (by decide) _ _).1.mpr (by decide)

/-! ## How encoding a typed row fails -/

/-- A value the binder lets into a column: a NULL the column takes, or a value
    of the column's type. -/
def FieldTyped (column : ColumnSchema) (value : Value) : Prop :=
  value = .null ∧ column.nullable = true ∨ valueTypeOf value = column.type

/-- A typed value fits unless it is a text of `2 ^ 32` bytes or more. -/
theorem encodeField_error {column : ColumnSchema} (hc : column.type ≠ .null) {value : Value}
    (ht : FieldTyped column value) {st : Status}
    (h : encodeField column value = .error st) :
    st.code = .invalidArgument ∧ 2 ^ 32 ≤ (fieldBytes value).length := by
  have hfit : ¬ FieldFits column value := by
    intro hfit
    rw [(encodeField_ok_iff hc value _).mpr ⟨hfit, rfl⟩] at h
    exact nomatch h
  rcases ht with ⟨rfl, hnull⟩ | ht
  · exact absurd hnull hfit
  · cases value with
    | null => exact absurd ht.symm hc
    | integer i => exact absurd ht.symm hfit
    | boolean b => exact absurd ht.symm hfit
    | text s =>
        have hlen : 2 ^ 32 ≤ s.length := by
          by_contra hlt
          exact hfit ⟨ht.symm, Nat.not_le.mp hlt⟩
        unfold encodeField at h
        rw [if_neg hc, show isNull (.text s) = false from rfl, if_neg Bool.false_ne_true,
          if_pos ((matches_iff _ _).mpr ht.symm), ← ht] at h
        dsimp only [valueTypeOf] at h
        rw [if_pos (by unfold kMaxU32; omega)] at h
        cases h
        refine ⟨rfl, hlen.trans ?_⟩
        rw [fieldBytes, List.length_cons, List.length_append]
        omega

/-- A typed row whose encoding fails is too long for any page. -/
theorem encode_error {schema : TableSchema} (hc : Storable schema.columns)
    {row : List Value} (ht : List.Forall₂ FieldTyped schema.columns row) {st : Status}
    (h : encode schema row = .error st) :
    st.code = .invalidArgument ∧ 2 ^ 32 ≤ (rowBytes row).length := by
  rw [encode] at h
  rw [if_neg (not_not.mpr ht.length_eq.symm)] at h
  generalize schema.columns = columns at hc ht h
  induction ht with
  | nil => exact nomatch h
  | @cons column value columns values hcv _ ih =>
      rw [rowBytes_cons, List.length_append]
      rcases bind_error_iff.mp h with h | ⟨field, -, h⟩
      · obtain ⟨hcode, hlen⟩ := encodeField_error (hc column List.mem_cons_self) hcv h
        exact ⟨hcode, by omega⟩
      · rcases bind_error_iff.mp h with h | ⟨fields, -, h⟩
        · obtain ⟨hcode, hlen⟩ := ih (fun c hc' => hc c (List.mem_cons_of_mem column hc')) h
          exact ⟨hcode, by omega⟩
        · exact nomatch h

end MattSql
