import AmazonRay.Lib.Runs

/-! The chunked transfer of an object: the sender cuts it, and the buffer pool of the receiver puts it together. -/
namespace AmazonRay.ChunkedTransfer
open Program List Nat

def memcpy (buffer : List UInt8) (position : ℕ) (bytes : List UInt8) : List UInt8 :=
  buffer.take position ++ bytes ++ buffer.drop (position + bytes.length)

section

variable {buffer bytes : List UInt8} {position : ℕ}

variable (h : position + bytes.length ≤ buffer.length)
include h

lemma length_memcpy : (memcpy buffer position bytes).length = buffer.length := by
  simp only [memcpy, length_append, length_take, length_drop]
  omega

lemma getElem?_memcpy (k : ℕ) : (memcpy buffer position bytes)[k]? =
      if position ≤ k ∧ k < position + bytes.length then bytes[k - position]? else buffer[k]? := by
  simp only [memcpy, getElem?_append, length_append, length_take, getElem?_take, getElem?_drop]
  grind

end

/-- An object with the chunk size. The constructor of `ChunkObjectReader` checks that the size is not 0. -/
structure Transfer where
  data : List UInt8
  metadata : List UInt8
  chunkSize : ℕ
  chunkSize_pos : 0 < chunkSize

/-- Arithmetic is that of `uint64_t`. -/
def wrap (n : ℕ) : ℕ := n % 2 ^ 64

lemma wrap_of_lt {n : ℕ} (h : n < 2 ^ 64) : wrap n = n := mod_eq_of_lt h

def readSection (part : List UInt8) (offset size : ℕ) : Option (List UInt8) :=
  if part.length < wrap (offset + size) then none else some ((part.drop offset).take size)

namespace Transfer

def size (t : Transfer) : ℕ := wrap (t.data.length + t.metadata.length)

def getNumChunks (t : Transfer) : ℕ := wrap (t.size + t.chunkSize + (2 ^ 64 - 1)) / t.chunkSize

def getChunk (t : Transfer) (chunkIndex : ℕ) : Option (List UInt8) := do
  let curChunkOffset := wrap (chunkIndex * t.chunkSize)
  let curChunkSize := min t.chunkSize (wrap (t.size + 2 ^ 64 - curChunkOffset))
  let mut result := List.replicate curChunkSize (0 : UInt8)
  let mut resultOffset := 0
  if curChunkOffset < t.data.length then
    let size := min (t.data.length - curChunkOffset) curChunkSize
    result := memcpy result 0 (← readSection t.data curChunkOffset size)
    resultOffset := size
  if t.data.length < wrap (curChunkOffset + curChunkSize) then
    let offset := max curChunkOffset t.data.length - t.data.length
    let size := min (wrap (curChunkOffset + curChunkSize) - t.data.length) curChunkSize
    result := memcpy result resultOffset (← readSection t.metadata offset size)
  return result

def bytes (t : Transfer) : List UInt8 := t.data ++ t.metadata

/-- Adding the chunk size to the size of the object does not overflow. -/
def Fits (t : Transfer) : Prop := t.data.length + t.metadata.length + t.chunkSize ≤ 2 ^ 64

variable {t : Transfer} {i : ℕ}

lemma length_bytes (t : Transfer) : t.bytes.length = t.data.length + t.metadata.length := length_append

lemma Fits.size_eq (h : t.Fits) : t.size = t.bytes.length := by
  have hpos := t.chunkSize_pos
  have hbytes := t.length_bytes
  rw [size, wrap_of_lt (by unfold Fits at h; omega), hbytes]

lemma Fits.getNumChunks_eq (h : t.Fits) : t.getNumChunks = (t.bytes.length + t.chunkSize - 1) / t.chunkSize := by
  have hpos := t.chunkSize_pos
  have hbytes := t.length_bytes
  unfold Fits at h
  rw [getNumChunks, Fits.size_eq h, wrap]
  apply congrArg (· / t.chunkSize)
  omega

/-- Where the sum overflows, the sender finds no chunk to send. -/
lemma getNumChunks_eq_zero (htotal : t.bytes.length < 2 ^ 64) (hsize : 1 ≤ t.bytes.length) (hchunk : t.chunkSize < 2 ^ 64)
    (h : ¬ t.Fits) : t.getNumChunks = 0 := by
  have hbytes := t.length_bytes
  have hsum : t.size = t.bytes.length := by rw [size, hbytes, wrap_of_lt (hbytes ▸ htotal)]
  unfold Fits at h
  rw [getNumChunks, hsum]
  refine Nat.div_eq_of_lt ?_
  unfold wrap
  omega

lemma Fits.lt_getNumChunks (h : t.Fits) : i < t.getNumChunks ↔ i * t.chunkSize < t.bytes.length := by
  have hpos := t.chunkSize_pos
  rw [h.getNumChunks_eq, lt_div_iff_mul_lt hpos]
  omega

def chunk (t : Transfer) (i : ℕ) : List UInt8 := (t.bytes.drop (i * t.chunkSize)).take t.chunkSize

lemma length_chunk (t : Transfer) (i : ℕ) : (t.chunk i).length = min t.chunkSize (t.bytes.length - i * t.chunkSize) := by
  rw [chunk, length_take, length_drop]

lemma getElem?_chunk (t : Transfer) (i k : ℕ) :
    (t.chunk i)[k]? = if k < t.chunkSize then t.bytes[i * t.chunkSize + k]? else none := by
  rw [chunk, getElem?_take, getElem?_drop]

lemma readSection_eq {part : List UInt8} {offset size : ℕ} (h : offset + size ≤ part.length)
    (hpart : part.length < 2 ^ 64) : readSection part offset size = some ((part.drop offset).take size) := by
  rw [readSection, wrap_of_lt (by omega), if_neg (by omega)]

lemma Fits.getChunk_eq (h : t.Fits) (hi : i < t.getNumChunks) : t.getChunk i = some (t.chunk i) := by
  have hstart := h.lt_getNumChunks.mp hi
  have hbytes := t.length_bytes
  have hpos := t.chunkSize_pos
  have hoffset : wrap (i * t.chunkSize) = i * t.chunkSize := wrap_of_lt (by unfold Fits at h; omega)
  have hrest : wrap (t.bytes.length + 2 ^ 64 - i * t.chunkSize) = t.bytes.length - i * t.chunkSize := by
    unfold Fits at h
    unfold wrap
    omega
  have hend : wrap (i * t.chunkSize + min t.chunkSize (t.bytes.length - i * t.chunkSize)) =
      i * t.chunkSize + min t.chunkSize (t.bytes.length - i * t.chunkSize) := wrap_of_lt (by unfold Fits at h; omega)
  have hsections : t.data.length < 2 ^ 64 ∧ t.metadata.length < 2 ^ 64 := by unfold Fits at h; omega
  unfold getChunk
  simp only [h.size_eq, hoffset, hrest, hend]
  generalize hsize : min t.chunkSize (t.bytes.length - i * t.chunkSize) = size at *
  have hchunk := t.getElem?_chunk i
  generalize i * t.chunkSize = offset at *
  by_cases hdata : offset < t.data.length
  · rw [if_pos hdata, readSection_eq (by omega) hsections.1]
    by_cases hmetadata : t.data.length < offset + size
    · rw [readSection_eq (by omega) hsections.2]
      simp only [hmetadata, if_true, Option.bind_eq_bind, Option.bind_some, Option.pure_def]
      refine congrArg some (ext_getElem? fun k => ?_)
      rw [hchunk, getElem?_memcpy, getElem?_memcpy, bytes, getElem?_append]
      all_goals grind [length_memcpy]
    · simp only [hmetadata, if_false, Option.bind_eq_bind, Option.bind_some, Option.pure_def]
      refine congrArg some (ext_getElem? fun k => ?_)
      rw [hchunk, getElem?_memcpy, bytes, getElem?_append]
      all_goals grind
  · have hmetadata : t.data.length < offset + size := by omega
    rw [readSection_eq (by omega) hsections.2]
    simp only [hdata, hmetadata, if_true, if_false, Option.bind_eq_bind, Option.bind_some, Option.pure_def]
    refine congrArg some (ext_getElem? fun k => ?_)
    rw [hchunk, getElem?_memcpy, bytes, getElem?_append]
    all_goals grind

lemma flatten_chunks (t : Transfer) (n : ℕ) : ((range n).map t.chunk).flatten = t.bytes.take (n * t.chunkSize) := by
  induction n with
  | zero => simp
  | succ n ih =>
    rw [range_succ, map_append, flatten_append, ih, succ_mul, take_add]
    simp [chunk]

structure ChunkInfo where
  position : ℕ
  bufferLength : ℕ

def buildChunks (t : Transfer) (spaceRemaining : ℕ) : List ChunkInfo :=
  if spaceRemaining = 0 then []
  else if spaceRemaining < t.chunkSize then [⟨t.size - spaceRemaining, spaceRemaining⟩]
  else ⟨t.size - spaceRemaining, t.chunkSize⟩ :: t.buildChunks (spaceRemaining - t.chunkSize)
termination_by spaceRemaining
decreasing_by
  have := t.chunkSize_pos
  omega

lemma getElem?_buildChunks {spaceRemaining k : ℕ} (h : k * t.chunkSize + spaceRemaining = t.size) (j : ℕ) :
    (t.buildChunks spaceRemaining)[j]? = if (k + j) * t.chunkSize < t.size then
      some ⟨(k + j) * t.chunkSize, min t.chunkSize (t.size - (k + j) * t.chunkSize)⟩ else none := by
  have hpos := t.chunkSize_pos
  induction spaceRemaining using Nat.strong_induction_on generalizing k j with
  | _ spaceRemaining ih =>
  have hmul : (k + j) * t.chunkSize = k * t.chunkSize + j * t.chunkSize := Nat.add_mul _ _ _
  rw [buildChunks]
  split
  · rw [if_neg (by omega), getElem?_nil]
  case isFalse hne =>
    split
    case isTrue hlast =>
      cases j with
      | zero => grind
      | succ j => grind
    case isFalse hfull =>
      cases j with
      | zero => grind
      | succ j =>
        have hnext : k + 1 + j = k + (j + 1) := by omega
        rw [getElem?_cons_succ, ih _ (by omega) (k := k + 1) (by grind), hnext]

lemma Fits.buildChunks_eq (h : t.Fits) : t.buildChunks t.size =
    (range t.getNumChunks).map fun i => ⟨i * t.chunkSize, (t.chunk i).length⟩ := by
  refine ext_getElem? fun i => ?_
  rw [getElem?_buildChunks (k := 0) (by omega), getElem?_map, Nat.zero_add]
  have hi := h.lt_getNumChunks (i := i)
  rw [← h.size_eq] at hi
  by_cases hlt : i < t.getNumChunks
  · rw [if_pos (hi.mp hlt), getElem?_range hlt, Option.map_some, length_chunk, h.size_eq]
  · rw [if_neg (mt hi.mpr hlt), getElem?_eq_none (by rw [length_range]; omega), Option.map_none]

lemma Fits.length_buildChunks (h : t.Fits) : (t.buildChunks t.size).length = t.getNumChunks := by
  rw [h.buildChunks_eq, length_map, length_range]

end Transfer

open Transfer

/-- `CreateChunkState`. -/
inductive ChunkState
  | available
  | referenced
  | sealed
  deriving DecidableEq

/-- The creation of one object, with the chunks that are still to be sealed. -/
structure CreateBufferState where
  chunkInfo : List ChunkInfo
  chunkState : ℕ → ChunkState
  numSealsRemaining : ℕ

/-- An object of the store, open until it is sealed. -/
structure PlasmaObject where
  buffer : List UInt8
  isSealed : Bool

/-- The buffer pool and the store for one object, with the calls of `Seal` that the store got. The chunk whose thread
waits is that of the operation in flight. The last two fields are kept by the caller and never read by the pool: the
chunks whose `CreateChunk` returned `OK`, and those of them it passed to `WriteChunk` since. -/
structure Pool where
  createBufferOp : Option ℕ
  createBufferState : Option CreateBufferState
  store : Option PlasmaObject
  seals : List (List UInt8)
  accepted : Finset ℕ
  written : Finset ℕ

/-- The checks of the pool. -/
inductive Check
  | bufferExists
  | numChunks
  | outOfRange
  | sizeMismatch
  | storeClient

abbrev PoolM := EStateM Check Pool

/-- The end of `CreateChunk`; a chunk that is not available is refused. A call that returns `OK` gives its chunk. -/
def referenceChunk (b : CreateBufferState) (i : ℕ) : PoolM (Option ℕ) := do
  check .outOfRange (i < b.chunkInfo.length)
  if b.chunkState i = .available then
    modify fun s => { s with
      createBufferState := some { b with chunkState := Function.update b.chunkState i .referenced } }
    return some i
  else return none

/-- `CreateChunk` up to the call of the store. A thread that finds an operation in flight waits; its next round is
another call. -/
def createChunk (i : ℕ) : PoolM (Option ℕ) := do
  let s ← get
  match s.createBufferState, s.createBufferOp with
  | some b, _ => referenceChunk b i
  | none, some _ => return none
  | none, none =>
    modify fun s => { s with createBufferOp := some i }
    return none

/-- `CreateChunk` after the store returns, which refuses an object that exists, and may refuse any other. -/
def createReply (t : Transfer) (created : Option (List UInt8)) : PoolM (Option ℕ) := do
  let s ← get
  match s.createBufferOp with
  | none => return none
  | some i =>
    check .bufferExists s.createBufferState.isNone
    match created, s.store with
    | some buffer, none =>
      let chunks := t.buildChunks t.size
      let b : CreateBufferState := ⟨chunks, fun _ => .available, chunks.length⟩
      modify fun s => { s with
        createBufferOp := none, createBufferState := some b, store := some ⟨buffer, false⟩ }
      check .numChunks (chunks.length = t.getNumChunks)
      referenceChunk b i
    | _, _ =>
      modify fun s => { s with createBufferOp := none }
      return none

def sealBuffer : PoolM Unit := do
  let s ← get
  match s.store with
  | some ⟨buffer, false⟩ =>
    set { s with createBufferState := none, store := some ⟨buffer, true⟩, seals := s.seals ++ [buffer] }
  | _ => throw .storeClient

def writeChunk (i : ℕ) (data : List UInt8) : PoolM Unit := do
  let s ← get
  match s.createBufferState with
  | none => pure ()
  | some b =>
    match b.chunkInfo[i]?, s.store with
    | some info, some object =>
      onlyIf (b.chunkState i = .referenced) do
        check .sizeMismatch (data.length = info.bufferLength)
        let remaining := b.numSealsRemaining - 1
        modify fun s => { s with
          createBufferState := some ⟨b.chunkInfo, Function.update b.chunkState i .sealed, remaining⟩
          store := some { object with buffer := memcpy object.buffer info.position data } }
        onlyIf (remaining = 0) sealBuffer
    | _, _ => throw .outOfRange

def abortCreate : PoolM Unit := do
  let s ← get
  match s.createBufferState, s.store with
  | none, _ => pure ()
  | some _, some ⟨_, false⟩ => modify fun s => { s with createBufferState := none, store := none }
  | some _, _ => throw .storeClient

/-- The calls of the receiver's threads, and the reply of the store. -/
inductive Op
  | createChunk (i : ℕ)
  | createReply (created : Option (List UInt8))
  | writeChunk (i : ℕ) (data : List UInt8)
  | abortCreate

def Pool.countAccept : Option ℕ → Pool → Pool
  | none, s => s
  | some i, s => { s with accepted := insert i s.accepted }

def Pool.countWrite (i : ℕ) (s : Pool) : Pool :=
  if i ∈ s.accepted then { s with written := insert i s.written } else s

/-- An object that is aborted before it is sealed starts anew. -/
def Pool.countAbort (s : Pool) : Pool :=
  if s.seals = [] then { s with accepted := ∅, written := ∅ } else s

def run (t : Transfer) : Op → PoolM Unit
  | .createChunk i => do
    let ok ← createChunk i
    modify (Pool.countAccept ok)
  | .createReply created => do
    let ok ← createReply t created
    modify (Pool.countAccept ok)
  | .writeChunk i data => do
    writeChunk i data
    modify (Pool.countWrite i)
  | .abortCreate => do
    abortCreate
    modify Pool.countAbort

/-- Chunks of the sender arrive, and the store gives buffers of the size asked for. -/
def Sent (t : Transfer) : Op → Pool → Prop
  | .createChunk i, _ => i < t.getNumChunks
  | .createReply created, _ => ∀ buffer ∈ created, buffer.length = t.size
  | .writeChunk i data, _ => i < t.getNumChunks ∧ t.getChunk i = some data
  | .abortCreate, _ => True

instance (t : Transfer) (op : Op) (s : Pool) : Decidable (Sent t op s) := by
  cases op <;> unfold Sent <;> infer_instance

def initial : Pool := ⟨none, none, none, [], ∅, ∅⟩

variable {t : Transfer} {b : CreateBufferState} {buffer : List UInt8} {accepted written : Finset ℕ} {i : ℕ} {s : Pool}

/-- The written chunks are those sealed, and the buffer agrees with the object on them. A chunk that is accepted and not
yet written is referenced. -/
structure Building (t : Transfer) (b : CreateBufferState) (buffer : List UInt8) (accepted written : Finset ℕ) :
    Prop where
  chunkInfo : b.chunkInfo = t.buildChunks t.size
  length : buffer.length = t.bytes.length
  sealed_iff : ∀ i, b.chunkState i = .sealed ↔ i ∈ written
  referenced_iff : ∀ i, b.chunkState i = .referenced ↔ i ∈ accepted ∧ i ∉ written
  lt : ∀ i ∈ written, i < t.getNumChunks
  remaining : b.numSealsRemaining + written.card = t.getNumChunks
  copied : ∀ k, k / t.chunkSize ∈ written → buffer[k]? = t.bytes[k]?

/-- Before the object is created, while it is built, and after it is sealed. -/
inductive Stage (t : Transfer) : Pool → Prop
  | idle {op : Option ℕ} (hop : ∀ i ∈ op, i < t.getNumChunks) : Stage t ⟨op, none, none, [], ∅, ∅⟩
  | building {b : CreateBufferState} {buffer : List UInt8} {accepted written : Finset ℕ}
    (h : Building t b buffer accepted written) (hremaining : b.numSealsRemaining ≠ 0) :
    Stage t ⟨none, some b, some ⟨buffer, false⟩, [], accepted, written⟩
  | done {op : Option ℕ} {accepted written : Finset ℕ} (h : ∀ i < t.getNumChunks, i ∈ written) :
    Stage t ⟨op, none, some ⟨t.bytes, true⟩, [t.bytes], accepted, written⟩

section

variable (h : Building t b buffer accepted written)
include h

lemma Building.write (ht : t.Fits) (hi : i < t.getNumChunks)
    (hreferenced : b.chunkState i = .referenced) (hremaining : b.numSealsRemaining ≠ 0) :
    Building t ⟨b.chunkInfo, Function.update b.chunkState i .sealed, b.numSealsRemaining - 1⟩
      (memcpy buffer (i * t.chunkSize) (t.chunk i)) accepted (insert i written) := by
  have hnew := ((h.referenced_iff i).mp hreferenced).2
  have hstart := ht.lt_getNumChunks.mp hi
  have hlength := t.length_chunk i
  have hroom : i * t.chunkSize + (t.chunk i).length ≤ buffer.length := by
    rw [h.length]
    omega
  refine ⟨h.chunkInfo, (length_memcpy hroom).trans h.length, fun j => ?_, fun j => ?_, ?_, ?_, fun k hk => ?_⟩
  · by_cases hj : j = i
    · simp [hj]
    · simp [hj, h.sealed_iff]
  · by_cases hj : j = i
    · simp [hj]
    · simp [hj, h.referenced_iff]
  · intro j hj
    rcases Finset.mem_insert.mp hj with rfl | hj
    · exact hi
    · exact h.lt j hj
  · have hcount := h.remaining
    rw [Finset.card_insert_of_notMem hnew]
    show b.numSealsRemaining - 1 + (written.card + 1) = t.getNumChunks
    omega
  · have hpos := t.chunkSize_pos
    have hindex := div_add_mod' k t.chunkSize
    have hmod := mod_lt k hpos
    rw [getElem?_memcpy hroom, getElem?_chunk]
    by_cases hki : k / t.chunkSize = i
    · have hbuffer := h.length
      rw [hki] at hindex
      grind
    · have hcopied := h.copied k ((Finset.mem_insert.mp hk).resolve_left hki)
      rw [if_neg, hcopied]
      rintro ⟨hfrom, hto⟩
      refine hki (Nat.div_eq_of_lt_le hfrom ?_)
      rw [succ_mul]
      omega

lemma Building.complete (ht : t.Fits) (hremaining : b.numSealsRemaining = 0) :
    (∀ i < t.getNumChunks, i ∈ written) ∧ buffer = t.bytes := by
  have hsub : written ⊆ Finset.range t.getNumChunks := fun i hi => Finset.mem_range.mpr (h.lt i hi)
  have hcard := h.remaining
  have hall : written = Finset.range t.getNumChunks :=
    Finset.eq_of_subset_of_card_le hsub (by rw [Finset.card_range]; omega)
  refine ⟨fun i hi => hall ▸ Finset.mem_range.mpr hi, ext_getElem? fun k => ?_⟩
  by_cases hk : k < t.bytes.length
  · have hfrom := div_mul_le_self k t.chunkSize
    exact h.copied k (hall ▸ Finset.mem_range.mpr (ht.lt_getNumChunks.mpr (by omega)))
  · rw [getElem?_eq_none (by rw [h.length]; omega), getElem?_eq_none (by omega)]

lemma Building.pending (hremaining : b.numSealsRemaining ≠ 0) : ∃ i < t.getNumChunks, i ∉ written := by
  have hcard := h.remaining
  obtain ⟨i, hi, hnew⟩ := Finset.exists_mem_notMem_of_card_lt_card (s := written) (t := Finset.range t.getNumChunks)
    (by rw [Finset.card_range]; omega)
  exact ⟨i, Finset.mem_range.mp hi, hnew⟩

lemma Building.reference (ht : t.Fits) (hremaining : b.numSealsRemaining ≠ 0) (hi : i < t.getNumChunks) :
    Completes ⟨none, some b, some ⟨buffer, false⟩, [], accepted, written⟩ (referenceChunk b i)
      fun ok u => Stage t (u.countAccept ok) := by
  refine .passing (by rw [h.chunkInfo, ht.length_buildChunks]; exact hi) ?_
  refine .ite (fun havailable => ?_) fun _ => .done (.building h hremaining)
  refine .modified (.done (.building { h with sealed_iff := fun j => ?_, referenced_iff := fun j => ?_ } hremaining))
  all_goals
    have hsealed := h.sealed_iff j
    have hreferenced := h.referenced_iff j
    by_cases hj : j = i
    · simp_all
    · simp_all

end

lemma stage_createReply (ht : t.Fits) (hsize : 1 ≤ t.bytes.length) {created : Option (List UInt8)}
    (hcreated : ∀ buffer ∈ created, buffer.length = t.size) (h : Stage t s) :
    Completes s (createReply t created) fun ok u => Stage t (u.countAccept ok) := by
  refine .seen ?_
  cases h with
  | building h hremaining => exact .done (.building h hremaining)
  | @done op accepted written hwritten =>
    cases op with
    | none => exact .done (.done hwritten)
    | some i =>
      refine .passing rfl ?_
      cases created <;> exact .modified (.done (.done hwritten))
  | @idle op hop =>
    cases op with
    | none => exact .done (.idle hop)
    | some i =>
      refine .passing rfl ?_
      cases created with
      | none => exact .modified (.done (.idle (by simp)))
      | some buffer =>
        have hcount := ht.length_buildChunks
        have hfirst : 0 < t.getNumChunks := ht.lt_getNumChunks.mpr (by omega)
        refine .modified (.passing hcount ?_)
        refine Building.reference ⟨rfl, ?_, ?_, ?_, ?_, ?_, ?_⟩ ht (hcount ▸ hfirst.ne') (hop i rfl)
        · exact (hcreated buffer rfl).trans ht.size_eq
        · simp
        · simp
        · simp
        · simpa using hcount
        · simp

lemma stage_writeChunk (ht : t.Fits) (hi : i < t.getNumChunks) (h : Stage t s) :
    Completes s (writeChunk i (t.chunk i)) fun _ u => Stage t (u.countWrite i) := by
  refine .seen ?_
  cases h with
  | idle hop => exact .done (.idle hop)
  | @done op accepted written hwritten =>
    refine .done ?_
    unfold Pool.countWrite
    split
    · exact .done fun j hj => Finset.mem_insert_of_mem (hwritten j hj)
    · exact .done hwritten
  | @building b buffer accepted written h hremaining =>
    have hinfo : b.chunkInfo[i]? = some ⟨i * t.chunkSize, (t.chunk i).length⟩ := by
      rw [h.chunkInfo, ht.buildChunks_eq, getElem?_map, getElem?_range hi, Option.map_some]
    simp only [hinfo]
    refine .when (fun hreferenced => ?_) fun hother => ?_
    · have haccepted := ((h.referenced_iff i).mp hreferenced).1
      have hwrite := h.write ht hi hreferenced hremaining
      simp only [Pool.countWrite]
      refine .passing rfl (.modified ?_)
      refine .when (fun hlast => .seen (.set fun _ _ => ?_)) fun hmore => ?_
      · obtain ⟨hall, hbuffer⟩ := hwrite.complete ht hlast
        rw [if_pos haccepted, hbuffer]
        exact .done hall
      · rw [if_pos haccepted]
        exact .building hwrite hmore
    · -- A repeated write, or one that was not accepted, changes neither the buffer nor the record.
      have hrecord := h.referenced_iff i
      unfold Pool.countWrite
      split
      case isTrue haccepted =>
        have hmem : i ∈ written := by_contra fun hn => hother (hrecord.mpr ⟨haccepted, hn⟩)
        rw [Finset.insert_eq_self.mpr hmem]
        exact .building h hremaining
      case isFalse => exact .building h hremaining

lemma stage_createChunk (ht : t.Fits) (hi : i < t.getNumChunks) (h : Stage t s) :
    Completes s (createChunk i) fun ok u => Stage t (u.countAccept ok) := by
  refine .seen ?_
  cases h with
  | building h hremaining => exact h.reference ht hremaining hi
  | @idle op hop =>
    cases op with
    | none =>
      refine .modified (.done (.idle fun j hj => ?_))
      cases hj
      exact hi
    | some j => exact .done (.idle hop)
  | @done op accepted written hwritten =>
    cases op with
    | none => exact .modified (.done (.done hwritten))
    | some j => exact .done (.done hwritten)

lemma stage_abortCreate (h : Stage t s) : Completes s abortCreate fun _ u => Stage t u.countAbort := by
  refine .seen ?_
  cases h with
  | building h hremaining => exact .updated (.idle (by simp))
  | idle hop => exact .done (.idle hop)
  | done hwritten => exact .done (.done hwritten)

lemma stage_run (ht : t.Fits) (hsize : 1 ≤ t.bytes.length) {op : Op} (hop : Sent t op s) (h : Stage t s) :
    Completes s (run t op) fun _ => Stage t := by
  cases op with
  | createChunk i => exact .call (stage_createChunk ht hop h) fun _ _ hu => .updated hu
  | createReply created => exact .call (stage_createReply ht hsize hop h) fun _ _ hu => .updated hu
  | writeChunk i data =>
    obtain ⟨hi, hdata⟩ := hop
    rw [ht.getChunk_eq hi] at hdata
    cases hdata
    exact .call (stage_writeChunk ht hi h) fun _ _ hu => .updated hu
  | abortCreate => exact .call (stage_abortCreate h) fun _ _ hu => .updated hu

/-- The chunks sent are the object, cut as the receiver cuts it, just if the sum of the sizes does not overflow. In every
run no check fails then, and the buffer is sealed once, with the object, when every chunk is written. -/
theorem chunks_reassemble (t : Transfer) (hsize : 1 ≤ t.bytes.length) (htotal : t.bytes.length < 2 ^ 64)
    (hchunk : t.chunkSize < 2 ^ 64) :
    ((∃ chunks : List (List UInt8), (range t.getNumChunks).map t.getChunk = chunks.map some ∧
      chunks.flatten = t.data ++ t.metadata ∧
      chunks.map length = (t.buildChunks t.size).map ChunkInfo.bufferLength) ↔
        t.data.length + t.metadata.length + t.chunkSize ≤ 2 ^ 64) ∧
    (t.data.length + t.metadata.length + t.chunkSize ≤ 2 ^ 64 → ∀ s, Reaches (run t) (Sent t) initial s →
      (∀ op, Sent t op s → ∃ u, run t op s = .ok () u) ∧
      ((s.seals = [] ∧ ∃ i < t.getNumChunks, i ∉ s.written) ∨
        (s.seals = [t.data ++ t.metadata] ∧ s.store = some ⟨t.data ++ t.metadata, true⟩ ∧
          ∀ i < t.getNumChunks, i ∈ s.written))) := by
  refine ⟨⟨?_, fun ht => ⟨(range t.getNumChunks).map t.chunk, ?_, ?_, ?_⟩⟩, fun ht s hs => ?_⟩
  · rintro ⟨chunks, hchunks, hflatten, -⟩
    by_contra hover
    rw [getNumChunks_eq_zero htotal hsize hchunk hover, range_zero, map_nil] at hchunks
    rw [map_eq_nil_iff.mp hchunks.symm, flatten_nil] at hflatten
    rw [Transfer.bytes, ← hflatten] at hsize
    simp at hsize
  · rw [map_map]
    exact map_congr_left fun i hi => Fits.getChunk_eq ht (mem_range.mp hi)
  · have hcount := Nat.le_of_not_lt fun hlt => lt_irrefl _ ((Fits.lt_getNumChunks ht).mpr hlt)
    rw [flatten_chunks, take_of_length_le hcount, Transfer.bytes]
  · rw [Fits.buildChunks_eq ht, map_map, map_map]
    rfl
  · have hstage : Stage t s := hs.invariant (.idle (by simp)) fun op u hop hu => stage_run ht hsize hop hu
    constructor
    · intro op hop
      obtain ⟨_, u, hrun, -⟩ := (stage_run ht hsize hop hstage).returns rfl
      exact ⟨u, hrun⟩
    · cases hstage with
      | idle => exact .inl ⟨rfl, 0, (Fits.lt_getNumChunks ht).mpr (by omega), Finset.notMem_empty 0⟩
      | building h hremaining => exact .inl ⟨rfl, h.pending hremaining⟩
      | done h => exact .inr ⟨rfl, rfl, h⟩

def small : Transfer := ⟨[1, 2], [3], 2, by decide⟩

/-- A first attempt that is aborted, and a second whose chunks arrive in the wrong order and twice. -/
theorem chunks_reassemble_small : 1 ≤ small.bytes.length ∧ small.bytes.length < 2 ^ 64 ∧ small.chunkSize < 2 ^ 64 ∧
    ∃ s, Reaches (run small) (Sent small) initial s ∧ s.written = {0, 1} ∧ s.seals = [[1, 2, 3]] := by
  have hsize : 1 ≤ small.bytes.length := by decide
  have htotal : small.bytes.length < 2 ^ 64 := by decide
  have hchunk : small.chunkSize < 2 ^ 64 := by decide
  refine ⟨hsize, htotal, hchunk, exists_after [.createChunk 0, .createReply (some [0, 0, 0]), .writeChunk 0 [1, 2],
    .abortCreate, .createChunk 1, .createReply (some [7, 7, 7]), .writeChunk 1 [3], .createChunk 0, .writeChunk 1 [3],
    .writeChunk 0 [1, 2], .createChunk 0] (fun s => s.written) {0, 1} (by decide +kernel) fun s hs hwritten => ?_⟩
  obtain ⟨-, hpending | ⟨hseals, -, -⟩⟩ := (chunks_reassemble small hsize htotal hchunk).2 (by decide) s hs
  · obtain ⟨-, i, hi, hnew⟩ := hpending
    have hbound : i < 2 := hi
    exact absurd (show i ∈ ({0, 1} : Finset ℕ) by interval_cases i <;> decide) (hwritten ▸ hnew)
  · exact ⟨hwritten, hseals⟩

/-- The number of chunks overflows, and nothing is sent where the receiver expects one chunk. -/
theorem huge_chunk_size_sends_nothing : ∃ t : Transfer, t.bytes = [1, 2] ∧
    (range t.getNumChunks).map t.getChunk = [] ∧ (t.buildChunks t.size).length = 1 := by
  refine ⟨⟨[1], [2], 2 ^ 64 - 1, by decide⟩, rfl, by decide +kernel, ?_⟩
  rw [Transfer.buildChunks, if_neg (by decide), if_pos (by decide)]
  rfl

end AmazonRay.ChunkedTransfer
