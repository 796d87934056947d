import LolaTransport.Bridge
import LolaTransport.Lib.Align
import Mathlib.Order.CompletePartialOrder
import Mathlib.Order.Interval.Set.Disjoint

/-!
# The raw slots of loaned samples

`genericSampleData` finds the raw slot of a loaned sample by taking the slot's offset off the
sample's address and putting it on the address of the storage.  `genericSampleDataChecked` is the
same computation on numbers that must not wrap around: that it has the same result says that nothing
in `genericSampleData` does (`genericSampleDataChecked_eq`).  What it finds is the slot's place in
the storage, or null (`genericSampleData_slot`).
-/

namespace LolaTransport

namespace Bridge

variable {w : PointerWidth}

section Arithmetic

/-- A product that does not wrap around. -/
def checkedMul (w : PointerWidth) (a b : ℕ) : Option ℕ :=
  if a * b ≤ usizeMax w then some (a * b) else none

/-- A quotient, and a remainder, by a number other than zero. -/
def checkedDiv (a b : ℕ) : Option ℕ := if b = 0 then none else some (a / b)

def checkedRem (a b : ℕ) : Option ℕ := if b = 0 then none else some (a % b)

def isPowerOfTwoChecked (value : ℕ) : Option Bool :=
  if value = 0 then some false
  else do
    let below ← checkedSub value 1
    return value &&& below = 0

def alignUpChecked (w : PointerWidth) (value alignment : ℕ) : Option (Option ℕ) := do
  if !(← isPowerOfTwoChecked alignment) then return none
  let remainder ← checkedRem value alignment
  if remainder = 0 then return some value
  let padding ← checkedSub alignment remainder
  let bound ← checkedSub (usizeMax w) padding
  if value > bound then return none
  return some (← checkedAdd w value padding)

def isSupportedSampleAlignmentChecked (alignment : ℕ) : Option Bool := do
  return (← isPowerOfTwoChecked alignment) && alignment ≤ maxAlign

def pointerIsAlignedChecked (ptr alignment : ℕ) : Option Bool := do
  if ptr = 0 then return false
  if !(← isSupportedSampleAlignmentChecked alignment) then return false
  return (← checkedRem ptr alignment) = 0

def checkedMultiplyChecked (w : PointerWidth) (lhs rhs : ℕ) : Option (Option ℕ) := do
  if lhs = 0 then return some (← checkedMul w lhs rhs)
  if rhs > (← checkedDiv (usizeMax w) lhs) then return none
  return some (← checkedMul w lhs rhs)

/-- `genericSampleData` without a result when a sum, a difference or a product in it does not fit
or a divisor is zero. -/
def genericSampleDataChecked (w : PointerWidth) (storageData : ℕ → ℕ) (sample : SampleAllocateePtr)
    (sampleSize sampleAlignment maxSamples : ℕ) : Option ℕ := do
  let skeletonSamplePtr := sample.get
  if skeletonSamplePtr = 0 || sampleSize = 0 || maxSamples = 0 then return 0
  if !(← isSupportedSampleAlignmentChecked sampleAlignment) then return 0
  match sample.referencedSlot with
  | none =>
    return if ← pointerIsAlignedChecked skeletonSamplePtr sampleAlignment then skeletonSamplePtr
      else 0
  | some slotIndex =>
    match ← alignUpChecked w sampleSize sampleAlignment with
    | none => return 0
    | some alignedSampleSize =>
      match ← checkedMultiplyChecked w alignedSampleSize maxSamples with
      | none => return 0
      | some totalStorageSize =>
        if slotIndex ≥ maxSamples then return 0
        if slotIndex > (← checkedDiv (usizeMax w) alignedSampleSize) then return 0
        let slotOffset ← checkedMul w slotIndex alignedSampleSize
        if slotOffset > totalStorageSize then return 0
        if sampleSize > (← checkedSub totalStorageSize slotOffset) then return 0
        if skeletonSamplePtr < slotOffset then return 0
        let rawSlots := storageData (← checkedSub skeletonSamplePtr slotOffset)
        if rawSlots = 0 then return 0
        if slotOffset > (← checkedSub (usizeMax w) rawSlots) then return 0
        let rawSlot ← checkedAdd w rawSlots slotOffset
        return if ← pointerIsAlignedChecked rawSlot sampleAlignment then rawSlot else 0

theorem mod_of_le_usizeMax {n : ℕ} (h : n ≤ usizeMax w) : n % 2 ^ w.bits = n := by
  have hpos : 0 < 2 ^ w.bits := Nat.two_pow_pos _
  exact Nat.mod_eq_of_lt (by unfold usizeMax at h; omega)

theorem checkedMul_of_le {a b : ℕ} (h : a * b ≤ usizeMax w) : checkedMul w a b = some (a * b) :=
  if_pos h

theorem checkedDiv_of_pos {a b : ℕ} (h : b ≠ 0) : checkedDiv a b = some (a / b) := if_neg h

theorem checkedRem_of_pos {a b : ℕ} (h : b ≠ 0) : checkedRem a b = some (a % b) := if_neg h

theorem checkedSub_of_le {a b : ℕ} (h : b ≤ a) : checkedSub a b = some (a - b) := if_pos h

theorem isPowerOfTwo_ne_zero {n : ℕ} (h : isPowerOfTwo n = true) : n ≠ 0 := by
  rintro rfl
  simp [isPowerOfTwo] at h

theorem supported_iff {alignment : ℕ} : isSupportedSampleAlignment alignment = true ↔
    isPowerOfTwo alignment = true ∧ alignment ≤ maxAlign := by
  simp [isSupportedSampleAlignment]

theorem pos_of_supported {alignment : ℕ} (h : isSupportedSampleAlignment alignment = true) :
    0 < alignment := Nat.pos_of_ne_zero (isPowerOfTwo_ne_zero (supported_iff.1 h).1)

theorem maxAlign_le_usizeMax : maxAlign ≤ usizeMax w := by
  rcases w with _ | _
  · decide
  · decide

theorem isPowerOfTwoChecked_eq (n : ℕ) : isPowerOfTwoChecked n = some (isPowerOfTwo n) := by
  unfold isPowerOfTwoChecked isPowerOfTwo
  by_cases hzero : n = 0
  · simp [hzero]
  · simp [hzero, checkedSub_of_le (Nat.one_le_iff_ne_zero.2 hzero)]

theorem alignUpChecked_eq {value alignment : ℕ} (halign : alignment ≤ usizeMax w) :
    alignUpChecked w value alignment = some (alignUp w value alignment) := by
  unfold alignUpChecked alignUp
  rw [isPowerOfTwoChecked_eq]
  by_cases hpower : isPowerOfTwo alignment = true
  · have hrem := checkedRem_of_pos (a := value) (isPowerOfTwo_ne_zero hpower)
    have hlt : value % alignment < alignment :=
      Nat.mod_lt _ (Nat.pos_of_ne_zero (isPowerOfTwo_ne_zero hpower))
    by_cases hzero : value % alignment = 0
    · simp [hpower, hrem, hzero]
    · have hpad := checkedSub_of_le hlt.le
      have hbound : checkedSub (usizeMax w) (alignment - value % alignment) =
          some (usizeMax w - (alignment - value % alignment)) := checkedSub_of_le (by omega)
      by_cases hover : value > usizeMax w - (alignment - value % alignment)
      · simp [hpower, hrem, hzero, hpad, hbound, hover]
      · have hfits : value + (alignment - value % alignment) ≤ usizeMax w := by omega
        simp [hpower, hrem, hzero, hpad, hbound, hover, checkedAdd, hfits, mod_of_le_usizeMax hfits]
  · simp [hpower]

theorem isSupportedSampleAlignmentChecked_eq (alignment : ℕ) :
    isSupportedSampleAlignmentChecked alignment = some (isSupportedSampleAlignment alignment) := by
  simp [isSupportedSampleAlignmentChecked, isSupportedSampleAlignment, isPowerOfTwoChecked_eq]

theorem pointerIsAlignedChecked_eq (ptr alignment : ℕ) :
    pointerIsAlignedChecked ptr alignment = some (pointerIsAligned ptr alignment) := by
  unfold pointerIsAlignedChecked pointerIsAligned
  rw [isSupportedSampleAlignmentChecked_eq]
  by_cases hptr : ptr = 0
  · simp [hptr]
  · by_cases hsupported : isSupportedSampleAlignment alignment = true
    · simp [hptr, hsupported, checkedRem_of_pos (pos_of_supported hsupported).ne']
    · simp [hptr, hsupported]

theorem mul_le_usizeMax {a b : ℕ} (ha : a ≠ 0) (h : ¬ b > usizeMax w / a) :
    a * b ≤ usizeMax w := by
  rw [Nat.mul_comm]
  exact (Nat.le_div_iff_mul_le (Nat.pos_of_ne_zero ha)).1 (Nat.le_of_not_lt h)

theorem checkedMultiplyChecked_eq (lhs rhs : ℕ) :
    checkedMultiplyChecked w lhs rhs = some (checkedMultiply w lhs rhs) := by
  unfold checkedMultiplyChecked checkedMultiply
  by_cases hzero : lhs = 0
  · simp [hzero, checkedMul]
  · by_cases hover : rhs > usizeMax w / lhs
    · simp [hzero, hover, checkedDiv_of_pos hzero]
    · have hfits := mul_le_usizeMax hzero hover
      simp [hzero, hover, checkedDiv_of_pos hzero, checkedMul_of_le hfits,
        mod_of_le_usizeMax hfits]

end Arithmetic

theorem alignUp_eq_some {value alignment aligned : ℕ}
    (hsupported : isSupportedSampleAlignment alignment = true) (hvalue : value ≤ usizeMax w) :
    alignUp w value alignment = some aligned ↔
      aligned = Align.up alignment value ∧ aligned ≤ usizeMax w := by
  obtain ⟨hpower, hle⟩ := supported_iff.1 hsupported
  have hpos := pos_of_supported hsupported
  have hmax := hle.trans (maxAlign_le_usizeMax (w := w))
  unfold alignUp
  rw [hpower]
  by_cases hzero : value % alignment = 0
  · simp only [Bool.not_true, Bool.false_eq_true, if_false, if_pos hzero, Option.some.injEq,
      Align.up_eq_self hzero hpos]
    constructor
    · rintro rfl
      exact ⟨rfl, hvalue⟩
    · exact fun h => h.1.symm
  · simp only [Bool.not_true, Bool.false_eq_true, if_false, if_neg hzero,
      Align.up_eq_add hzero hpos]
    by_cases hover : value > usizeMax w - (alignment - value % alignment)
    · simp only [if_pos hover, reduceCtorEq, false_iff]
      omega
    · have hfits : value + (alignment - value % alignment) ≤ usizeMax w := by omega
      simp only [if_neg hover, Option.some.injEq, mod_of_le_usizeMax hfits]
      constructor
      · rintro rfl
        exact ⟨rfl, hfits⟩
      · exact fun h => h.1.symm

theorem checkedMultiply_eq_some {lhs rhs product : ℕ} :
    checkedMultiply w lhs rhs = some product ↔ product = lhs * rhs ∧ product ≤ usizeMax w := by
  unfold checkedMultiply
  by_cases hzero : lhs = 0
  · simp [hzero]
    omega
  · by_cases hover : rhs > usizeMax w / lhs
    · have hlarge : usizeMax w < lhs * rhs := by
        rw [Nat.mul_comm]
        exact (Nat.div_lt_iff_lt_mul (Nat.pos_of_ne_zero hzero)).1 hover
      simp only [ne_eq, hzero, not_false_eq_true, decide_true, Bool.true_and, decide_eq_true_eq,
        if_pos hover, reduceCtorEq, false_iff]
      omega
    · have hfits := mul_le_usizeMax hzero hover
      simp only [ne_eq, hzero, not_false_eq_true, decide_true, Bool.true_and, decide_eq_true_eq,
        if_neg hover, Option.some.injEq, mod_of_le_usizeMax hfits]
      constructor
      · rintro rfl
        exact ⟨rfl, hfits⟩
      · exact fun h => h.1.symm

theorem pointerIsAligned_dvd {ptr alignment : ℕ} (h : pointerIsAligned ptr alignment = true) :
    alignment ∣ ptr := by
  unfold pointerIsAligned at h
  split_ifs at h
  exact Nat.dvd_of_mod_eq_zero (of_decide_eq_true h)

section Slot

variable {storageData : ℕ → ℕ} {get slot sampleSize sampleAlignment maxSamples : ℕ}

theorem genericSampleData_of_le (h : maxSamples ≤ slot) : genericSampleData w storageData
    ⟨get, some slot⟩ sampleSize sampleAlignment maxSamples = 0 := by
  unfold genericSampleData
  dsimp only
  split_ifs with hbad
  · rfl
  · split
    · rfl
    · split
      · rfl
      · rw [if_pos (by simp [h])]

/-- What is found is the place of the slot behind what the storage's `data` is, and the checks on
the way there have passed. -/
theorem genericSampleData_slot (hsize : sampleSize ≤ usizeMax w)
    (hbase : storageData (get - slot * Align.up sampleAlignment sampleSize) ≤ usizeMax w)
    (hfound : genericSampleData w storageData ⟨get, some slot⟩ sampleSize sampleAlignment
      maxSamples ≠ 0) :
    slot < maxSamples ∧
      genericSampleData w storageData ⟨get, some slot⟩ sampleSize sampleAlignment maxSamples =
        storageData (get - slot * Align.up sampleAlignment sampleSize) +
          slot * Align.up sampleAlignment sampleSize ∧
      sampleAlignment ∣ genericSampleData w storageData ⟨get, some slot⟩ sampleSize
        sampleAlignment maxSamples := by
  generalize hdata : genericSampleData w storageData ⟨get, some slot⟩ sampleSize sampleAlignment
    maxSamples = data at hfound ⊢
  unfold genericSampleData at hdata
  dsimp only at hdata
  split_ifs at hdata with hbad
  · exact absurd hdata.symm hfound
  have hsupported : isSupportedSampleAlignment sampleAlignment = true := by
    simp only [Bool.or_eq_true, not_or, Bool.not_eq_true', Bool.not_eq_false] at hbad
    exact hbad.2
  rcases haligned : alignUp w sampleSize sampleAlignment with _ | stride
  · rw [haligned] at hdata
    exact absurd hdata.symm hfound
  simp only [haligned] at hdata
  obtain ⟨hstride, -⟩ := (alignUp_eq_some hsupported hsize).1 haligned
  rw [← hstride] at hbase ⊢
  rcases htotal : checkedMultiply w stride maxSamples with _ | total
  · rw [htotal] at hdata
    exact absurd hdata.symm hfound
  simp only [htotal] at hdata
  obtain ⟨rfl, hfits⟩ := checkedMultiply_eq_some.1 htotal
  by_cases hslot : (slot ≥ maxSamples || slot > usizeMax w / stride) = true
  · rw [if_pos hslot] at hdata
    exact absurd hdata.symm hfound
  rw [if_neg hslot] at hdata
  have hlt : slot < maxSamples := by
    simp only [Bool.or_eq_true, decide_eq_true_eq, not_or] at hslot
    omega
  have hoffset : slot * stride ≤ usizeMax w := calc
    slot * stride ≤ maxSamples * stride := Nat.mul_le_mul_right stride hlt.le
    _ = stride * maxSamples := Nat.mul_comm ..
    _ ≤ usizeMax w := hfits
  rw [mod_of_le_usizeMax hoffset] at hdata
  split_ifs at hdata with hroom hunder hnull hover hptr
  · exact absurd hdata.symm hfound
  · exact absurd hdata.symm hfound
  · exact absurd hdata.symm hfound
  · exact absurd hdata.symm hfound
  · have hsum : storageData (get - slot * stride) + slot * stride ≤ usizeMax w := by omega
    rw [mod_of_le_usizeMax hsum] at hdata hptr
    exact ⟨hlt, hdata.symm, hdata ▸ pointerIsAligned_dvd hptr⟩
  · exact absurd hdata.symm hfound

/-- Nothing in the computation wraps around. -/
theorem genericSampleDataChecked_eq {sample : SampleAllocateePtr} (hsize : sampleSize ≤ usizeMax w)
    (hbase : ∀ slot, sample.referencedSlot = some slot →
      storageData (sample.get - slot * Align.up sampleAlignment sampleSize) ≤ usizeMax w) :
    genericSampleDataChecked w storageData sample sampleSize sampleAlignment maxSamples =
      some (genericSampleData w storageData sample sampleSize sampleAlignment maxSamples) := by
  unfold genericSampleDataChecked genericSampleData
  simp only [isSupportedSampleAlignmentChecked_eq, pointerIsAlignedChecked_eq]
  by_cases hbad : (sample.get = 0 || sampleSize = 0 || maxSamples = 0) = true
  · simp only [hbad, Bool.true_or, if_true]
    rfl
  by_cases hsupported : isSupportedSampleAlignment sampleAlignment = true
  · simp only [hbad, hsupported, Bool.not_true, Bool.or_false, Bool.false_eq_true, if_false]
    rcases hslot : sample.referencedSlot with _ | slot
    · rfl
    have hstored := hbase slot hslot
    rw [alignUpChecked_eq ((supported_iff.1 hsupported).2.trans maxAlign_le_usizeMax)]
    rcases haligned : alignUp w sampleSize sampleAlignment with _ | stride
    · rfl
    obtain ⟨rfl, -⟩ := (alignUp_eq_some hsupported hsize).1 haligned
    generalize hstride : Align.up sampleAlignment sampleSize = stride at hstored
    have hpos : stride ≠ 0 := by
      have hle := Align.le_up (n := sampleSize) (pos_of_supported hsupported)
      simp only [Bool.or_eq_true, decide_eq_true_eq, not_or] at hbad
      omega
    simp only [Option.bind_eq_bind, Option.bind_some, Option.pure_def, Bool.not_true,
      Bool.false_eq_true, if_false, checkedMultiplyChecked_eq, checkedDiv_of_pos hpos]
    rcases htotal : checkedMultiply w stride maxSamples with _ | total
    · rfl
    by_cases hlt : slot ≥ maxSamples
    · simp [hlt]
    by_cases hdiv : slot > usizeMax w / stride
    · simp [hlt, hdiv]
    have hoffset : slot * stride ≤ usizeMax w := by
      rw [Nat.mul_comm]
      exact mul_le_usizeMax hpos hdiv
    simp only [checkedMul_of_le hoffset, mod_of_le_usizeMax hoffset, Option.bind_some, hlt, hdiv,
      decide_false, Bool.or_self, Bool.false_eq_true, if_false]
    by_cases htotal' : slot * stride > total
    · simp [htotal']
    by_cases hroom : sampleSize > total - slot * stride
    · simp [htotal', hroom, checkedSub_of_le (Nat.le_of_not_lt htotal')]
    by_cases hunder : sample.get < slot * stride
    · simp [htotal', hroom, checkedSub_of_le (Nat.le_of_not_lt htotal'), hunder]
    simp only [htotal', hroom, checkedSub_of_le (Nat.le_of_not_lt htotal'), hunder,
      checkedSub_of_le (Nat.le_of_not_lt hunder), checkedSub_of_le hstored, Option.bind_some,
      decide_false, Bool.or_self, Bool.false_eq_true, if_false]
    by_cases hnull : storageData (sample.get - slot * stride) = 0
    · simp [hnull]
    by_cases hover : slot * stride > usizeMax w - storageData (sample.get - slot * stride)
    · simp [hnull, hover]
    have hsum : storageData (sample.get - slot * stride) + slot * stride ≤ usizeMax w := by omega
    simp [hnull, hover, checkedAdd, hsum, mod_of_le_usizeMax hsum]
  · simp only [hbad, hsupported]
    rfl

end Slot

/-- The storage of an event's slots: the object at `storage`, whose `data` are the slots.  Its sizes
and the address of the slots are numbers that the machine has. -/
structure SlotStorage (w : PointerWidth) where
  storage : ℕ
  storageData : ℕ → ℕ
  sampleSize : ℕ
  sampleAlignment : ℕ
  maxSamples : ℕ
  supported : isSupportedSampleAlignment sampleAlignment = true
  size_le : sampleSize ≤ usizeMax w
  base_le : storageData storage ≤ usizeMax w

namespace SlotStorage

variable (S : SlotStorage w)

/-- The size of a slot. -/
def stride : ℕ := Align.up S.sampleAlignment S.sampleSize

/-- The address of the first slot. -/
def base : ℕ := S.storageData S.storage

/-- The sample the LoLa binding allocates in a slot: its pointer is counted from the storage. -/
def sample (slot : ℕ) : SampleAllocateePtr where
  get := S.storage + slot * S.stride
  referencedSlot := some slot

def data (slot : ℕ) : ℕ :=
  genericSampleData w S.storageData (S.sample slot) S.sampleSize S.sampleAlignment S.maxSamples

/-- The addresses of the bytes that are handed out for a slot. -/
def bytes (slot : ℕ) : Set ℕ := Set.Ico (S.data slot) (S.data slot + S.sampleSize)

variable {S} {slot slot' : ℕ}

theorem sampleSize_le_stride : S.sampleSize ≤ S.stride := Align.le_up (pos_of_supported S.supported)

theorem get_sub_offset : S.storage + slot * S.stride -
    slot * Align.up S.sampleAlignment S.sampleSize = S.storage := Nat.add_sub_cancel ..

theorem data_eq (h : S.data slot ≠ 0) : slot < S.maxSamples ∧
    S.data slot = S.base + slot * S.stride ∧ S.sampleAlignment ∣ S.data slot := by
  have hslot := genericSampleData_slot S.size_le (by rw [get_sub_offset]; exact S.base_le) h
  rwa [get_sub_offset] at hslot

theorem disjoint_of_lt (h : S.data slot ≠ 0) (h' : S.data slot' ≠ 0) (hlt : slot < slot') :
    Disjoint (S.bytes slot) (S.bytes slot') := by
  have hle := Align.add_le_of_lt (sampleSize_le_stride (S := S)) hlt
  have hdata := (data_eq h).2.1
  have hdata' := (data_eq h').2.1
  exact Set.Ico_disjoint_Ico.2 (by omega)

/-- Each slot's data is null or lies in the storage, aligned and apart from that of the others; it
is null for a slot the storage does not have; and nothing wraps around on the way to it. -/
theorem slot_mapping (S : SlotStorage w) :
    (∀ slot, genericSampleDataChecked w S.storageData (S.sample slot) S.sampleSize
      S.sampleAlignment S.maxSamples = some (S.data slot)) ∧
    (∀ get slot, S.maxSamples ≤ slot → genericSampleData w S.storageData ⟨get, some slot⟩
      S.sampleSize S.sampleAlignment S.maxSamples = 0) ∧
    (∀ slot, S.data slot ≠ 0 → S.sampleAlignment ∣ S.data slot ∧
      S.bytes slot ⊆ Set.Ico S.base (S.base + S.stride * S.maxSamples)) ∧
    ∀ slot slot', slot ≠ slot' → S.data slot ≠ 0 → S.data slot' ≠ 0 →
      Disjoint (S.bytes slot) (S.bytes slot') := by
  refine ⟨fun slot => ?_, fun get slot => genericSampleData_of_le, fun slot h => ?_,
    fun slot slot' hne h h' => ?_⟩
  · refine genericSampleDataChecked_eq S.size_le fun slot' hslot => ?_
    cases hslot
    rw [sample, get_sub_offset]
    exact S.base_le
  · obtain ⟨hlt, hdata, hdvd⟩ := data_eq h
    have hle := Align.add_le_of_lt (sampleSize_le_stride (S := S)) hlt
    rw [Nat.mul_comm S.maxSamples] at hle
    exact ⟨hdvd, Set.Ico_subset_Ico (by omega) (by omega)⟩
  · rcases Nat.lt_or_gt_of_ne hne with hlt | hgt
    · exact disjoint_of_lt h h' hlt
    · exact (disjoint_of_lt h' h hgt).symm

/-- Two slots of 32 for samples of 24, whose data start at 4096. -/
def plainStorage : SlotStorage .w64 where
  storage := 1024
  storageData _ := 4096
  sampleSize := 24
  sampleAlignment := 16
  maxSamples := 2
  supported := rfl
  size_le := by decide
  base_le := by decide

theorem slot_mapping_plain :
    plainStorage.data 0 = 4096 ∧ plainStorage.data 1 = 4128 ∧ plainStorage.data 2 = 0 ∧
      genericSampleDataChecked .w64 (fun _ => 4096) (plainStorage.sample 1) 24 16 2 = some 4128 ∧
      plainStorage.bytes 1 ⊆ Set.Ico 4096 4160 ∧
      Disjoint (plainStorage.bytes 0) (plainStorage.bytes 1) := by
  obtain ⟨hchecked, hnull, hplace, hapart⟩ := slot_mapping plainStorage
  have hfirst : plainStorage.data 0 = 4096 := by decide
  have hsecond : plainStorage.data 1 = 4128 := by decide
  have hnone : plainStorage.data 2 = 0 := hnull _ 2 (Nat.le_refl 2)
  refine ⟨hfirst, hsecond, hnone, ?_, (hplace 1 ?_).2, hapart 0 1 (by decide) ?_ ?_⟩
  · rw [← hsecond]
    exact hchecked 1
  · rw [hsecond]
    decide
  · rw [hfirst]
    decide
  · rw [hsecond]
    decide

end SlotStorage

end Bridge

end LolaTransport
