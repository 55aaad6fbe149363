import RipSim.Library.Overlay
import RipSim.Reference.Bytes

/-!
# The six accesses of the memory

`Access` names the six operations of `Memory`, so that what holds of all of them is said
once.  Two things do.  The guard of an access compares its first index with the size of
the DRAM, so it stops everything that starts below the DRAM or more than one byte past
it, and nothing else.  And an access that lies in the DRAM is a write of its bytes, low
byte first, to the map from addresses to bytes.
-/

namespace RipSim

/-- An operation of `Memory`, with the value it writes. -/
inductive Access where
  | writeByte (Val : Byte)
  | readByte
  | writeHalfWord (Val : HalfWord)
  | readHalfWord
  | writeWord (Val : Word)
  | readWord
  deriving DecidableEq, Repr

namespace Access

/-- The number of bytes it touches. -/
def width : Access → ℕ
  | writeByte _ | readByte => 1
  | writeHalfWord _ | readHalfWord => 2
  | writeWord _ | readWord => 4

/-- The value it writes, as a word. -/
def stored : Access → Option Word
  | writeByte Val => some (Val.setWidth 32)
  | writeHalfWord Val => some (Val.setWidth 32)
  | writeWord Val => some Val
  | readByte | readHalfWord | readWord => none

/-- The operation at address `Ad`, with the memory it leaves. -/
def perform (A : Access) (M : Memory) (Ad : Address) : Except Fault Memory :=
  match A with
  | writeByte Val => M.writeByte Ad Val
  | readByte => (fun _ => M) <$> M.readByte Ad
  | writeHalfWord Val => M.writeHalfWord Ad Val
  | readHalfWord => (fun _ => M) <$> M.readHalfWord Ad
  | writeWord Val => M.writeWord Ad Val
  | readWord => (fun _ => M) <$> M.readWord Ad

/-- The byte it writes at address `a`, if it writes one there. -/
def byteAt (A : Access) (Ad a : Address) : Option Byte :=
  if (a - Ad).toNat < A.width then
    A.stored.map (·.extractLsb' (8 * (a - Ad).toNat) 8)
  else none

variable (A : Access) {M : Memory} {Ad : Address}

theorem width_pos : 0 < A.width := by
  cases A <;> simp [width]

/-! ## The guard -/

/-- Every access starts with the range checks. -/
theorem perform_of_dramAd {f : Fault} (h : M.dramAd Ad = .error f) :
    A.perform M Ad = .error f := by
  cases A <;>
    simp [perform, Memory.writeByte, Memory.readByte, Memory.writeHalfWord,
      Memory.readHalfWord, Memory.writeWord, Memory.readWord, h, bind, Except.bind,
      Functor.map, Except.map]

/-- A write in the DRAM stores its bytes, a read in the DRAM stores nothing. -/
theorem perform_of_contains (hC : M.Contains Ad A.width) :
    A.perform M Ad
      = .ok (A.stored.elim M (M.store (Ad - M.DRAMBase) A.width ·)) := by
  cases A with
  | writeByte Val =>
    have h := hC.writeByte (Val.setWidth 32)
    rwa [BitVec.setWidth_setWidth_of_le Val (by omega), BitVec.setWidth_eq] at h
  | readByte => simp [perform, stored, hC.readByte, Functor.map, Except.map]
  | writeHalfWord Val =>
    have h := hC.writeHalfWord (Val.setWidth 32)
    rwa [BitVec.setWidth_setWidth_of_le Val (by omega), BitVec.setWidth_eq] at h
  | readHalfWord => simp [perform, stored, hC.readHalfWord, Functor.map, Except.map]
  | writeWord Val => exact hC.writeWord Val
  | readWord => simp [perform, stored, hC.readWord, Functor.map, Except.map]

/-- The accesses the guard lets through although a byte of theirs is past the DRAM: they
start at the index of one of the last `width - 1` bytes, or at the index after them. -/
structure Straddles (M : Memory) (Ad : Address) : Prop where
  base : M.DRAMBase.toNat ≤ Ad.toNat
  start : Ad.toNat ≤ M.DRAMBase.toNat + M.DRAMSize.toNat
  last : M.DRAMBase.toNat + M.DRAMSize.toNat < Ad.toNat + A.width

/-- What the guard of an access is for: an index that passes is one from which every byte
touched is in the vector, so that the vector is never indexed past its end, and an access
with a byte outside the DRAM is turned away by one of the two assertions, so that nothing
is written. -/
structure Guarded (M : Memory) (Ad : Address) : Prop where
  indices : ∀ d, M.dramAd Ad = .ok d → ∀ k < A.width, d.toNat + k < M.DRAMSize.toNat
  inVector : A.perform M Ad ≠ .error .outOfBounds
  rejects : ¬M.Contains Ad A.width →
    A.perform M Ad = .error .smallerThanDRAMBase ∨ A.perform M Ad = .error .biggerThanDRAMSize

theorem dramAd_of_lt (h : Ad.toNat < M.DRAMBase.toNat) :
    M.dramAd Ad = .error .smallerThanDRAMBase :=
  if_pos h

theorem dramAd_of_gt (hb : M.DRAMBase.toNat ≤ Ad.toNat)
    (h : M.DRAMBase.toNat + M.DRAMSize.toNat < Ad.toNat) :
    M.dramAd Ad = .error .biggerThanDRAMSize := by
  have hsub : (Ad - M.DRAMBase).toNat = Ad.toNat - M.DRAMBase.toNat := BitVec.toNat_sub_of_le hb
  have hgt : M.DRAMSize < Ad - M.DRAMBase := by
    rw [BitVec.lt_def, hsub]
    omega
  unfold Memory.dramAd
  rw [if_neg (show ¬Ad < M.DRAMBase from Nat.not_lt.mpr hb), if_pos hgt]

theorem dramAd_of_le (hb : M.DRAMBase.toNat ≤ Ad.toNat)
    (h : Ad.toNat ≤ M.DRAMBase.toNat + M.DRAMSize.toNat) :
    M.dramAd Ad = .ok (Ad - M.DRAMBase) :=
  Memory.Contains.dramAd ⟨hb, h⟩ (n := 0)

/-- **When the guards suffice.**  They do for every access but those that straddle the end
of the DRAM: the comparison is with the size and not with the last index, and it does not
know the width. -/
theorem guarded_iff (A : Access) (M : Memory) (Ad : Address) :
    A.Guarded M Ad ↔ ¬A.Straddles M Ad := by
  constructor
  · intro hG hS
    have hlast := hG.indices _ (dramAd_of_le hS.base hS.start) (A.width - 1)
      (Nat.sub_lt A.width_pos Nat.one_pos)
    rw [show (Ad - M.DRAMBase).toNat = _ from BitVec.toNat_sub_of_le hS.base] at hlast
    have hb := hS.base
    have hl := hS.last
    have hw := A.width_pos
    omega
  · intro hS
    by_cases hb : M.DRAMBase.toNat ≤ Ad.toNat
    · by_cases hs : Ad.toNat ≤ M.DRAMBase.toNat + M.DRAMSize.toNat
      · -- the access starts in the DRAM or just after it, and does not straddle the end
        have hC : M.Contains Ad A.width := ⟨hb, Nat.not_lt.mp fun hl => hS ⟨hb, hs, hl⟩⟩
        refine ⟨fun d hd k hk => ?_, ?_, fun hn => absurd hC hn⟩
        · have hd' : Ad - M.DRAMBase = d := Except.ok.inj ((dramAd_of_le hb hs).symm.trans hd)
          have hsize := hC.size
          rw [← hd', hC.toNat_sub]
          omega
        · rw [A.perform_of_contains hC]
          exact nofun
      · have hgt := dramAd_of_gt hb (Nat.not_le.mp hs)
        exact ⟨fun d hd => absurd (hgt.symm.trans hd) (by simp),
          by simp [A.perform_of_dramAd hgt], fun _ => .inr (A.perform_of_dramAd hgt)⟩
    · have hlt := dramAd_of_lt (Nat.not_le.mp hb)
      exact ⟨fun d hd => absurd (hlt.symm.trans hd) (by simp),
        by simp [A.perform_of_dramAd hlt], fun _ => .inl (A.perform_of_dramAd hlt)⟩

/-- A word written to the last byte of a DRAM of four bytes at address `0` passes the
guard, and its second byte is past the vector. -/
theorem guarded_fails_at_the_last_byte :
    ¬(∀ (A : Access) (M : Memory) (Ad : Address), A.Guarded M Ad) ∧
      (Access.writeWord 0).perform (Memory.new 4 0) 3 = .error .outOfBounds := by
  constructor
  · intro h
    have h3 := (h (.writeWord 0) (Memory.new 4 0) 3).indices 3 (by decide) 3 (by decide)
    exact absurd h3 (by decide)
  · rfl

/-! ## The bytes -/

/-- The byte of a memory at an address. -/
def byte (M : Memory) (a : Address) : Byte := M.DRAM (a - M.DRAMBase)

/-- A memory after an access that lies in the DRAM: its base and size are the old ones, and
its bytes are the old ones with those of the access put over them. -/
theorem perform_ok (hC : M.Contains Ad A.width) :
    ∃ M', A.perform M Ad = .ok M' ∧ M'.DRAMBase = M.DRAMBase ∧ M'.DRAMSize = M.DRAMSize ∧
      byte M' = Overlay.put (byte M) (A.byteAt Ad) := by
  refine ⟨_, A.perform_of_contains hC, ?_⟩
  cases hs : A.stored with
  | none =>
    refine ⟨rfl, rfl, funext fun a => ?_⟩
    rw [Overlay.put_of_none _ _ (by simp [byteAt, hs])]
    rfl
  | some v =>
    refine ⟨rfl, rfl, funext fun a => ?_⟩
    show (if (a - M.DRAMBase - (Ad - M.DRAMBase)).toNat < A.width then
        v.extractLsb' (8 * (a - M.DRAMBase - (Ad - M.DRAMBase)).toNat) 8 else byte M a) = _
    rw [sub_sub_sub_cancel_right, Overlay.put, byteAt, hs]
    by_cases h : (a - Ad).toNat < A.width
    · rw [if_pos h, if_pos h]
      rfl
    · rw [if_neg h, if_neg h]
      rfl

end Access

/-- Accesses one after the other, each at its address. -/
def performAll (M : Memory) (As : List (Address × Access)) : Except Fault Memory :=
  As.foldlM (fun M A => A.2.perform M A.1) M

/-- The byte most recently written at address `a`, zero where none was. -/
def written (As : List (Address × Access)) (a : Address) : Byte :=
  (Overlay.last (As.map fun A => A.2.byteAt A.1) a).getD 0

theorem performAll_ok (As : List (Address × Access)) : ∀ {M : Memory},
    (∀ A ∈ As, M.Contains A.1 A.2.width) →
      ∃ M', performAll M As = .ok M' ∧ M'.DRAMBase = M.DRAMBase ∧ M'.DRAMSize = M.DRAMSize ∧
        Access.byte M' = Overlay.puts (Access.byte M) (As.map fun A => A.2.byteAt A.1) := by
  induction As with
  | nil => exact fun _ => ⟨_, rfl, rfl, rfl, rfl⟩
  | cons A As ih =>
    intro M hAs
    obtain ⟨M₁, hM₁, hbase, hsize, hbyte⟩ := A.2.perform_ok (hAs A (List.mem_cons_self ..))
    -- the DRAM is where it was, so the other accesses still lie in it
    have hAs₁ : ∀ B ∈ As, M₁.Contains B.1 B.2.width := fun B hB =>
      have hC := hAs B (List.mem_cons_of_mem _ hB)
      ⟨by rw [hbase]; exact hC.base, by rw [hbase, hsize]; exact hC.size⟩
    obtain ⟨M', hM', hbase', hsize', hbyte'⟩ := ih hAs₁
    refine ⟨M', ?_, hbase'.trans hbase, hsize'.trans hsize, ?_⟩
    · rw [performAll, List.foldlM_cons, hM₁]
      exact hM'
    · rw [hbyte', hbyte]
      rfl

/-- **The memory is a little-endian byte store.**  Accesses in the DRAM succeed from the
zeroed memory on, whatever their widths and overlaps.  Every read in the DRAM then composes,
low byte first, the bytes most recently written at its addresses, and one more write changes
only the bytes of its own width. -/
theorem read_written (DRAMSize DRAMBase : Address) (As : List (Address × Access))
    (hAs : ∀ A ∈ As, (Memory.new DRAMSize DRAMBase).Contains A.1 A.2.width) :
    ∃ M, performAll (Memory.new DRAMSize DRAMBase) As = .ok M ∧
      M.DRAMBase = DRAMBase ∧ M.DRAMSize = DRAMSize ∧
      (∀ Ad, M.Contains Ad 1 → M.readByte Ad = .ok (written As Ad)) ∧
      (∀ Ad, M.Contains Ad 2 → M.readHalfWord Ad = .ok (written As (Ad + 1) ++ written As Ad)) ∧
      (∀ Ad, M.Contains Ad 4 → M.readWord Ad
        = .ok (written As (Ad + 3) ++ written As (Ad + 2) ++ written As (Ad + 1) ++
            written As Ad)) ∧
      ∀ (A : Access) (Ad : Address), M.Contains Ad A.width →
        ∃ M', A.perform M Ad = .ok M' ∧
          ∀ a, ¬(a - Ad).toNat < A.width → Access.byte M' a = Access.byte M a := by
  obtain ⟨M, hM, hbase, hsize, hbyte⟩ := performAll_ok As hAs
  have hw : ∀ a, M.DRAM (a - M.DRAMBase) = written As a := fun a =>
    (congrFun hbyte a).trans (Overlay.puts_apply _ _ a)
  have hk : ∀ a k : Address, M.DRAM (a - M.DRAMBase + k) = written As (a + k) := fun a k => by
    rw [← hw, sub_add_eq_add_sub]
  refine ⟨M, hM, hbase, hsize, fun Ad hC => ?_, fun Ad hC => ?_, fun Ad hC => ?_,
    fun A Ad hC => ?_⟩
  · rw [hC.readByte, hw]
  · rw [hC.readHalfWord, hw, hk]
  · rw [hC.readWord, hw, hk, hk, hk]
  · obtain ⟨M', hM', -, -, hput⟩ := A.perform_ok hC
    refine ⟨M', hM', fun a ha => ?_⟩
    exact (congrFun hput a).trans (Overlay.put_of_none _ _ (if_neg ha))

/-- A word, a half word across its upper bytes and a byte in the middle of both. -/
theorem read_written_overlapping :
    ∃ M, performAll (Memory.new 16 0x100)
        [(0x101, .writeWord 0x8899aabb), (0x103, .writeHalfWord 0xf1f2), (0x104, .writeByte 0x77)]
        = .ok M ∧
      M.readWord 0x101 = .ok 0x77f2aabb ∧ M.readWord 0x103 = .ok 0x000077f2 := by
  obtain ⟨M, hM, hbase, hsize, -, -, hword, -⟩ := read_written 16 0x100
    [(0x101, .writeWord 0x8899aabb), (0x103, .writeHalfWord 0xf1f2), (0x104, .writeByte 0x77)]
    (by decide)
  have hC : ∀ Ad, (Memory.new 16 0x100).Contains Ad 4 → M.Contains Ad 4 := fun Ad h =>
    ⟨by rw [hbase]; exact h.base, by rw [hbase, hsize]; exact h.size⟩
  exact ⟨M, hM, (hword _ (hC _ (by decide))).trans (by decide),
    (hword _ (hC _ (by decide))).trans (by decide)⟩

end RipSim
