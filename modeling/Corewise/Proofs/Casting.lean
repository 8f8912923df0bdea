import Corewise.Proofs.Lowering.Conversion
/-!
Numbers under conversion. A whole type holds all integers between its least and its greatest and converts
these exactly, so a conversion keeps every number exactly if all of the source are in the range of the target;
and the casts of whole types that loops make on their own are those.
-/

namespace Corewise

namespace DType

/-- `bool` and the integers. -/
def IsWhole (t : DType) : Prop := t.kind ≠ .float

instance : DecidablePred IsWhole := fun t => inferInstanceAs (Decidable (t.kind ≠ .float))

/-- The least number of a whole type. -/
def least (t : DType) : Int :=
  match t.kind with
  | .signed => -Nat.pow 2 (t.bits - 1)
  | _ => 0

/-- The greatest number of a whole type. -/
def greatest (t : DType) : Int :=
  match t.kind with
  | .bool => 1
  | .unsigned => Nat.pow 2 t.bits - 1
  | .signed => Nat.pow 2 (t.bits - 1) - 1
  | .float => 0

/-- The number is in the range of a whole type. -/
def Fits (t : DType) (n : Int) : Prop := t.least ≤ n ∧ n ≤ t.greatest

instance (t : DType) (n : Int) : Decidable (t.Fits n) := inferInstanceAs (Decidable (_ ∧ _))

theorem fits_least (t : DType) : t.Fits t.least := by
  refine ⟨Int.le_refl _, ?_⟩
  cases t <;> decide

theorem fits_greatest (t : DType) : t.Fits t.greatest := by
  refine ⟨?_, Int.le_refl _⟩
  cases t <;> decide

/-- Between whole types, a cast that a loop makes on its own is one to a range that includes the other. -/
theorem castsSafely_iff_fits {source target : DType} (hs : source.IsWhole) (ht : target.IsWhole) :
    source.castsSafely target = true ↔ target.Fits source.least ∧ target.Fits source.greatest := by
  cases source with
  | float32 => exact absurd rfl hs
  | float64 => exact absurd rfl hs
  | _ =>
    cases target with
    | float32 => exact absurd rfl ht
    | float64 => exact absurd rfl ht
    | _ => decide

end DType

namespace Scalar

variable {s : Scalar} {t : DType} {n : Int}

theorem number_fits (h : s.dtype.IsWhole) : ∃ n, s.number = .whole n ∧ s.dtype.Fits n := by
  cases s with
  | bool b =>
    cases b
    · exact ⟨0, rfl, by decide⟩
    · exact ⟨1, rfl, by decide⟩
  | int8 v => exact ⟨_, rfl, v.le_toInt, Int.le_sub_one_of_lt v.toInt_lt⟩
  | int16 v => exact ⟨_, rfl, v.le_toInt, Int.le_sub_one_of_lt v.toInt_lt⟩
  | int32 v => exact ⟨_, rfl, v.le_toInt, Int.le_sub_one_of_lt v.toInt_lt⟩
  | int64 v => exact ⟨_, rfl, v.le_toInt, Int.le_sub_one_of_lt v.toInt_lt⟩
  | uint8 v => exact ⟨_, rfl, Int.natCast_nonneg _, Int.le_sub_one_of_lt (Int.ofNat_lt.2 v.toNat_lt)⟩
  | uint16 v => exact ⟨_, rfl, Int.natCast_nonneg _, Int.le_sub_one_of_lt (Int.ofNat_lt.2 v.toNat_lt)⟩
  | uint32 v => exact ⟨_, rfl, Int.natCast_nonneg _, Int.le_sub_one_of_lt (Int.ofNat_lt.2 v.toNat_lt)⟩
  | uint64 v => exact ⟨_, rfl, Int.natCast_nonneg _, Int.le_sub_one_of_lt (Int.ofNat_lt.2 v.toNat_lt)⟩
  | float32 v => exact absurd rfl h
  | float64 v => exact absurd rfl h

theorem toNat_wrapped (size : Nat) (hleast : 0 ≤ n) (hgreatest : n ≤ size - 1) :
    (((n % size).toNat % size : Nat) : Int) = n := by
  have hself : n % size = n := Int.emod_eq_of_lt hleast (Int.lt_of_le_sub_one hgreatest)
  rw [hself, Nat.mod_eq_of_lt (by omega), Int.toNat_of_nonneg hleast]

theorem number_ofNumber (ht : t.IsWhole) (h : t.Fits n) : (ofNumber t (.whole n)).number = .whole n := by
  obtain ⟨hleast, hgreatest⟩ := h
  cases t with
  | bool =>
    replace hleast : 0 ≤ n := hleast
    replace hgreatest : n ≤ 1 := hgreatest
    obtain rfl | rfl : n = 0 ∨ n = 1 := by omega
    · rfl
    · rfl
  | int8 => exact congrArg Number.whole (Int8.toInt_ofInt_of_le hleast (Int.lt_of_le_sub_one hgreatest))
  | int16 => exact congrArg Number.whole (Int16.toInt_ofInt_of_le hleast (Int.lt_of_le_sub_one hgreatest))
  | int32 => exact congrArg Number.whole (Int32.toInt_ofInt_of_le hleast (Int.lt_of_le_sub_one hgreatest))
  | int64 => exact congrArg Number.whole (Int64.toInt_ofInt_of_le hleast (Int.lt_of_le_sub_one hgreatest))
  | uint8 => exact congrArg Number.whole (toNat_wrapped UInt8.size hleast hgreatest)
  | uint16 => exact congrArg Number.whole (toNat_wrapped UInt16.size hleast hgreatest)
  | uint32 => exact congrArg Number.whole (toNat_wrapped UInt32.size hleast hgreatest)
  | uint64 => exact congrArg Number.whole (toNat_wrapped UInt64.size hleast hgreatest)
  | float32 => exact absurd rfl ht
  | float64 => exact absurd rfl ht

theorem cast_of_ne (h : s.dtype ≠ t) : s.cast t = ofNumber t s.number := if_neg h

/-- An integer is kept in a whole type exactly if it is in range there. -/
theorem number_cast_iff (ht : t.IsWhole) (hn : s.number = .whole n) :
    (s.cast t).number = s.number ↔ t.Fits n := by
  constructor
  case mp =>
    intro hkept
    obtain ⟨n', hn', hfits⟩ := number_fits (s := s.cast t) (by rwa [s.dtype_cast])
    rw [hkept, hn] at hn'
    cases hn'
    rwa [s.dtype_cast] at hfits
  case mpr =>
    intro hfits
    by_cases htype : s.dtype = t
    case pos => rw [← htype, s.cast_dtype_self]
    case neg => rw [cast_of_ne htype, hn, number_ofNumber ht hfits]

end Scalar

/-- Between whole types, the casts that loops make on their own are those that keep the number of every
scalar. -/
theorem DType.castsSafely_iff_keeps {source target : DType} (hs : source.IsWhole) (ht : target.IsWhole) :
    source.castsSafely target = true ↔
      ∀ v : Scalar, v.dtype = source → (v.cast target).number = v.number := by
  rw [castsSafely_iff_fits hs ht]
  constructor
  case mp =>
    rintro ⟨hleast, hgreatest⟩ v rfl
    obtain ⟨n, hn, hfits⟩ := Scalar.number_fits hs
    rw [Scalar.number_cast_iff ht hn]
    exact ⟨Int.le_trans hleast.1 hfits.1, Int.le_trans hfits.2 hgreatest.2⟩
  case mpr =>
    intro hkept
    -- The scalars with the extreme numbers of the source are kept as well.
    have hextreme (n : Int) (hn : source.Fits n) : target.Fits n := by
      have hnumber := Scalar.number_ofNumber hs hn
      have htype := Scalar.dtype_ofNumber source (.whole n)
      exact (Scalar.number_cast_iff ht hnumber).1 (hkept _ htype)
    exact ⟨hextreme _ source.fits_least, hextreme _ source.fits_greatest⟩

namespace Contents

/-- The numbers that an operand holds, those of an array in the order of its elements. -/
def numbers : Contents → List Number
  | scalar s => [s.number]
  | array b => b.data.map Scalar.number

theorem numbers_cast {c : Contents} {target : DType} (hc : c.WellFormed) (hs : c.dtype.IsWhole)
    (ht : target.IsWhole) (hsafe : c.dtype.castsSafely target = true) :
    (c.cast target).numbers = c.numbers := by
  have hkept := (DType.castsSafely_iff_keeps hs ht).1 hsafe
  cases c with
  | scalar s => exact congrArg (fun n => [n]) (hkept s rfl)
  | array b =>
    show (b.data.map (·.cast target)).map Scalar.number = b.data.map Scalar.number
    rw [List.map_map]
    exact List.map_congr_left fun s hs => hkept s (hc.2 s hs)

end Contents

/-- The element of an array without axes is all that it holds. -/
theorem Buffer.WellFormed.bare {b : Buffer} (hb : b.WellFormed) {s : Scalar} (h : b.get? [] = some s) :
    b.shape = [] ∧ b.data = [s] := by
  obtain ⟨k, hk, hs⟩ := Option.bind_eq_some_iff.1 h
  rcases hshape : b.shape with _ | ⟨n, shape⟩
  case cons =>
    rw [hshape] at hk
    cases hk
  case nil =>
    rw [hshape] at hk
    cases hk
    have hlength : b.data.length = 1 := hb.1.trans (congrArg Shape.size hshape)
    obtain ⟨s', hdata⟩ := List.length_eq_one_iff.1 hlength
    rw [hdata] at hs
    cases hs
    exact ⟨rfl, hdata⟩

/-- Converting an operand of a whole type to a whole type that it casts to safely keeps its numbers. -/
theorem Action.castTo_numbers {m m' : Memory} (hm : m.WellFormed) {v v' : Value} {source target : OperandType}
    (hsafe : ∀ dtype, target.element? = some dtype → (m.dtype v).IsWhole ∧ dtype.IsWhole ∧
      (m.dtype v).castsSafely dtype = true)
    (hrun : (castTo v source target).run m = (.ok v', m')) :
    (m'.contents v').numbers = (m.contents v).numbers ∧ m'.shape v' = m.shape v := by
  unfold castTo at hrun
  split at hrun
  case h_1 =>
    cases hrun
    exact ⟨rfl, rfl⟩
  case h_2 =>
    cases hrun
    exact ⟨rfl, rfl⟩
  case h_3 s dtype =>
    cases hrun
    obtain ⟨hs, ht, hcast⟩ := hsafe dtype rfl
    exact ⟨Contents.numbers_cast (c := .scalar s) trivial hs ht hcast, rfl⟩
  case h_4 r dtype rank _ =>
    obtain ⟨hs, ht, hcast⟩ := hsafe dtype rfl
    replace hrun : ((if (m.buffer r).rank ≠ rank then throw (.cast source _)
      else if (m.buffer r).dtype = dtype then return .array r
      else newArray ((m.buffer r).cast dtype) : Action Value)).run m = (.ok v', m') := hrun
    split at hrun
    case isTrue => cases hrun
    case isFalse =>
      split at hrun
      case isTrue =>
        cases hrun
        exact ⟨rfl, rfl⟩
      case isFalse =>
        cases hrun
        have hnew : (m.alloc ((m.buffer r).cast dtype)).2.contents (.array m.buffers.length) =
            (m.contents (.array r)).cast dtype := congrArg Contents.array Memory.buffer_alloc_new
        show ((m.alloc _).2.contents (.array m.buffers.length)).numbers = _ ∧
          ((m.alloc _).2.contents (.array m.buffers.length)).shape = _
        rw [hnew]
        exact ⟨Contents.numbers_cast (hm.contents _) hs ht hcast, Contents.shape_cast _ _⟩
  case h_5 r dtype =>
    obtain ⟨hs, ht, hcast⟩ := hsafe dtype rfl
    rw [Effect.run_get_bind] at hrun
    split at hrun
    case h_2 => cases hrun
    case h_1 s hget =>
      cases hrun
      obtain ⟨hshape, hdata⟩ := (hm.buffer r).bare hget
      have hwhole := Contents.numbers_cast (hm.contents (.array r)) hs ht hcast
      constructor
      · rw [← hwhole]
        show [_] = ((m.buffer r).data.map (·.cast dtype)).map Scalar.number
        rw [hdata]
        rfl
      · exact hshape.symm
  case h_6 => cases hrun

end Corewise
