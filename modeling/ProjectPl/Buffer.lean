import ProjectPl.BufferCore
import ProjectPl.Lib.Run

/-!
`CircleBuffer` is a bounded byte queue. One lemma for each operation says what it does to
the queue and which offsets it touches. The refinement theorem assembles them over every
sequence of calls.
-/

namespace ProjectPl

open Ring

theorem mem_offsetsOf {start count offset : Nat} :
    offset ∈ offsetsOf start count ↔ start ≤ offset ∧ offset < start + count := by
  simp only [offsetsOf, List.mem_map, List.mem_range]
  constructor
  · rintro ⟨step, below, rfl⟩
    omega
  · rintro ⟨lower, upper⟩
    exact ⟨offset - start, by omega, by omega⟩

namespace CircleBuffer

@[simp] theorem contents_length (buffer : CircleBuffer) :
    buffer.contents.length = buffer.nDataSize := by
  simp [contents]

theorem contents_fits (buffer : CircleBuffer) : buffer.contents.length ≤ buffer.nBufferSize := by
  simpa using buffer.aligned.dataFits

/-- The write of a source longer than the room up to the tail goes round: the cells it
fills are the ones right after the contents, in order. -/
theorem wrapped_store (buffer : CircleBuffer) (pSrc : List UInt8)
    (fits : buffer.nDataSize + pSrc.length ≤ buffer.nBufferSize)
    (wraps : buffer.nBufferSize - buffer.pWrite < pSrc.length) :
    window
        (store (store buffer.pBuffer buffer.pWrite
          (pSrc.take (buffer.nBufferSize - buffer.pWrite))) 0
          (pSrc.drop (buffer.nBufferSize - buffer.pWrite)))
        buffer.nBufferSize buffer.pRead (buffer.nDataSize + pSrc.length) =
      buffer.contents ++ pSrc := by
  obtain ⟨readInside, writeInside, dataFits, chased⟩ := buffer.aligned
  generalize gapEq : buffer.nBufferSize - buffer.pWrite = gap at wraps ⊢
  have headLength : (pSrc.take gap).length = gap := by simp; omega
  have restLength : (pSrc.drop gap).length = pSrc.length - gap := by simp
  apply window_store
  · intro offset below
    rw [store_outside, store_outside]
    · rw [headLength, index]
      split <;> omega
    · rw [restLength, index]
      split <;> omega
  · intro offset inside
    by_cases first : offset < gap
    · have position : index buffer.nBufferSize buffer.pRead (buffer.nDataSize + offset) =
          buffer.pWrite + offset := by
        unfold index
        split <;> omega
      rw [position, store_outside _ _ _ _ (by rw [restLength]; omega),
        store_inside _ _ _ _ (by omega), List.getElem_take]
    · have position : index buffer.nBufferSize buffer.pRead (buffer.nDataSize + offset) =
          0 + (offset - gap) := by
        unfold index
        split <;> omega
      rw [position, store_inside _ _ _ _ (by omega), List.getElem_drop]
      congr 1
      omega

theorem straight_store (buffer : CircleBuffer) (pSrc : List UInt8)
    (fits : buffer.nDataSize + pSrc.length ≤ buffer.nBufferSize)
    (room : pSrc.length ≤ buffer.nBufferSize - buffer.pWrite) :
    window (store buffer.pBuffer buffer.pWrite pSrc) buffer.nBufferSize buffer.pRead
        (buffer.nDataSize + pSrc.length) =
      buffer.contents ++ pSrc := by
  obtain ⟨readInside, writeInside, dataFits, chased⟩ := buffer.aligned
  apply window_store
  · intro offset below
    rw [store_outside]
    unfold index
    split <;> omega
  · intro offset inside
    have position : index buffer.nBufferSize buffer.pRead (buffer.nDataSize + offset) =
        buffer.pWrite + offset := by
      unfold index
      split <;> omega
    rw [position, store_inside _ _ _ _ inside]

theorem write_accepted (buffer : CircleBuffer) (pSrc : List UInt8)
    (fits : buffer.contents.length + pSrc.length ≤ buffer.nBufferSize) :
    (buffer.write pSrc).1.contents = buffer.contents ++ pSrc ∧
      (buffer.write pSrc).1.nBufferSize = buffer.nBufferSize ∧
      (buffer.write pSrc).2.response =
        { returned := some (buffer.contents.length + pSrc.length) } ∧
      ∀ offset ∈ (buffer.write pSrc).2.touched, offset < buffer.nBufferSize := by
  rw [contents_length] at fits
  have dataFits := buffer.aligned.dataFits
  have writeInside := buffer.aligned.writeInside
  have accepted : ¬(buffer.nBufferSize < buffer.nDataSize ∨
      buffer.nBufferSize - buffer.nDataSize < pSrc.length) := by omega
  by_cases wraps : buffer.nBufferSize - buffer.pWrite < pSrc.length
  · simp only [write, contents, BufferBase.circleWrite, accepted, wraps, ↓reduceIte,
      window_length, true_and]
    refine ⟨wrapped_store buffer pSrc fits wraps, ?_⟩
    intro offset member
    rcases List.mem_append.mp member with first | second
    · have bounds := mem_offsetsOf.mp first
      omega
    · have bounds := mem_offsetsOf.mp second
      omega
  · simp only [write, contents, BufferBase.circleWrite, accepted, wraps, ↓reduceIte,
      window_length, true_and]
    refine ⟨straight_store buffer pSrc fits (by omega), ?_⟩
    intro offset member
    have bounds := mem_offsetsOf.mp member
    omega

theorem write_refused (buffer : CircleBuffer) (pSrc : List UInt8)
    (full : ¬buffer.contents.length + pSrc.length ≤ buffer.nBufferSize) :
    buffer.write pSrc = (buffer, { response := { returned := some ulongMinusOne } }) := by
  rw [contents_length] at full
  have refused : buffer.nBufferSize < buffer.nDataSize ∨
      buffer.nBufferSize - buffer.nDataSize < pSrc.length := by omega
  have unchanged : buffer.circleWrite pSrc =
      (buffer.toBufferBase, { response := { returned := some ulongMinusOne } }) := by
    simp only [BufferBase.circleWrite, refused, ↓reduceIte]
  simp only [write, unchanged]

theorem read_accepted (buffer : CircleBuffer) (nReqSize : Nat)
    (enough : nReqSize ≤ buffer.contents.length) :
    (buffer.read nReqSize).response =
        { returned := some nReqSize, copied := buffer.contents.take nReqSize } ∧
      ∀ offset ∈ (buffer.read nReqSize).touched, offset < buffer.nBufferSize := by
  rw [contents_length] at enough
  obtain ⟨readInside, writeInside, dataFits, chased⟩ := buffer.aligned
  have accepted : ¬buffer.nDataSize < nReqSize := by omega
  rw [contents, window_take _ _ _ _ _ enough]
  by_cases wraps : buffer.nBufferSize - buffer.pRead < nReqSize
  · simp only [read, BufferBase.circleRead, accepted, wraps, ↓reduceIte]
    refine ⟨?_, ?_⟩
    · rw [load_append_eq_window _ _ _ _ readInside (by omega)]
    · intro offset member
      rcases List.mem_append.mp member with first | second
      · have bounds := mem_offsetsOf.mp first
        omega
      · have bounds := mem_offsetsOf.mp second
        omega
  · simp only [read, BufferBase.circleRead, accepted, wraps, ↓reduceIte]
    refine ⟨?_, ?_⟩
    · rw [load_eq_window _ buffer.nBufferSize _ _ (by omega)]
    · intro offset member
      have bounds := mem_offsetsOf.mp member
      omega

theorem read_refused (buffer : CircleBuffer) (nReqSize : Nat)
    (short : ¬nReqSize ≤ buffer.contents.length) :
    buffer.read nReqSize = { response := { returned := some ulongMinusOne } } := by
  rw [contents_length] at short
  have refused : buffer.nDataSize < nReqSize := by omega
  simp only [read, BufferBase.circleRead, refused, ↓reduceIte]

theorem erase_accepted (buffer : CircleBuffer) (releaseSize : Nat)
    (enough : releaseSize ≤ buffer.contents.length) :
    (buffer.erase releaseSize).1.contents = buffer.contents.drop releaseSize ∧
      (buffer.erase releaseSize).1.nBufferSize = buffer.nBufferSize ∧
      (buffer.erase releaseSize).2 =
        { response := { returned := some (buffer.contents.length - releaseSize) } } := by
  rw [contents_length] at enough
  obtain ⟨readInside, writeInside, dataFits, chased⟩ := buffer.aligned
  have accepted : ¬buffer.nDataSize < releaseSize := by omega
  by_cases wraps : buffer.nBufferSize - buffer.pRead < releaseSize
  · simp only [erase, contents, BufferBase.circleErase, accepted, wraps, ↓reduceIte,
      window_length, and_true]
    rw [window_drop _ _ _ _ _ (releaseSize - (buffer.nBufferSize - buffer.pRead))
      (Or.inr (by omega)) readInside enough dataFits]
  · simp only [erase, contents, BufferBase.circleErase, accepted, wraps, ↓reduceIte,
      window_length, and_true]
    rw [window_drop _ _ _ _ _ _ (Or.inl rfl) readInside enough dataFits]

theorem erase_refused (buffer : CircleBuffer) (releaseSize : Nat)
    (short : ¬releaseSize ≤ buffer.contents.length) :
    buffer.erase releaseSize = (buffer, { response := { returned := some ulongMinusOne } }) := by
  rw [contents_length] at short
  have refused : buffer.nDataSize < releaseSize := by omega
  have unchanged : buffer.circleErase releaseSize =
      (buffer.toBufferBase, { response := { returned := some ulongMinusOne } }) := by
    simp only [BufferBase.circleErase, refused, ↓reduceIte]
  simp only [erase, unchanged]

def Holds (capacity : Nat) (buffer : CircleBuffer) (queue : List UInt8) : Prop :=
  buffer.contents = queue ∧ buffer.nBufferSize = capacity

def Answers (capacity : Nat) (result : CircleResult) (response : Fifo.Response UInt8) : Prop :=
  result.response = response ∧ ∀ offset ∈ result.touched, offset < capacity

theorem step_simulates (capacity : Nat) (buffer : CircleBuffer) (queue : List UInt8)
    (op : Fifo.Op UInt8) (holds : Holds capacity buffer queue) :
    Holds capacity (buffer.step op).1 (Fifo.step ulongMinusOne capacity queue op).1 ∧
      Answers capacity (buffer.step op).2 (Fifo.step ulongMinusOne capacity queue op).2 := by
  obtain ⟨rfl, rfl⟩ := holds
  cases op with
  | write values =>
      simp only [step, Fifo.step]
      split
      next fits =>
        obtain ⟨written, size, response, touched⟩ := buffer.write_accepted values fits
        exact ⟨⟨written, size⟩, response, touched⟩
      next full =>
        rw [buffer.write_refused values full]
        exact ⟨⟨rfl, rfl⟩, rfl, by simp⟩
  | read count =>
      simp only [step, Fifo.step]
      split
      next enough => exact ⟨⟨rfl, rfl⟩, buffer.read_accepted count enough⟩
      next short =>
        rw [buffer.read_refused count short]
        exact ⟨⟨rfl, rfl⟩, rfl, by simp⟩
  | erase count =>
      simp only [step, Fifo.step]
      split
      next enough =>
        obtain ⟨erased, size, response⟩ := buffer.erase_accepted count enough
        refine ⟨⟨erased, size⟩, ?_⟩
        rw [response]
        exact ⟨rfl, by simp⟩
      next short =>
        rw [buffer.erase_refused count short]
        exact ⟨⟨rfl, rfl⟩, rfl, by simp⟩
  | reset =>
      refine ⟨⟨rfl, rfl⟩, rfl, ?_⟩
      intro offset member
      have bounds := mem_offsetsOf.mp member
      omega

/-- Over every sequence of calls on a new ring of `capacity` bytes, the ring answers as the
bounded queue does, its data size is the length of the queue, and every offset it touches
lies below the capacity. -/
theorem refines_fifo (capacity : Nat) (heap : Nat → UInt8) (ops : List (Fifo.Op UInt8)) :
    List.Forall₂ (Answers capacity) (Run.run step (new capacity heap) ops).2
        (Run.run (Fifo.step ulongMinusOne capacity) [] ops).2 ∧
      (Run.run step (new capacity heap) ops).1.contents =
        (Run.run (Fifo.step ulongMinusOne capacity) [] ops).1 ∧
      (Run.run step (new capacity heap) ops).1.getDataSize =
        (Run.run (Fifo.step ulongMinusOne capacity) [] ops).1.length := by
  have start : Holds capacity (new capacity heap) [] := ⟨rfl, rfl⟩
  obtain ⟨held, answered⟩ :=
    Run.run_simulation (step_simulates capacity) (new capacity heap) [] start ops
  refine ⟨answered, held.1, ?_⟩
  rw [← held.1, contents_length]
  rfl

end CircleBuffer

end ProjectPl
