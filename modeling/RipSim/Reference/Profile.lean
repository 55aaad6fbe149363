import RipSim.Reference.Interpreter
import RipSim.Library.Tally

/-!
# What is executed, and how it is counted

A `Profile` says what the statistics are about, without machine integers: the mnemonics that
have been executed, the distances between the branches, and the distance since the last.
`Statistics` is a profile as far as counters of 32 bits show it (`toStatistics_of`), and its
sums are those of the profile exactly if no counter wraps around (`sums_iff`).
-/

namespace RipSim

/-- What has been executed. -/
@[ext] structure Profile where
  /-- The mnemonics, in the order of execution. -/
  mnemos : List Mnemo
  /-- For each conditional branch, the number of other instructions since the one before. -/
  distances : List ℕ
  /-- The number of other instructions since the last conditional branch. -/
  pending : ℕ

namespace Profile

/-- One instruction more. -/
def count (P : Profile) (I : Instruction) : Profile :=
  if I.isBType then ⟨P.mnemos ++ [I.getMnemo], P.distances ++ [P.pending], 0⟩
  else ⟨P.mnemos ++ [I.getMnemo], P.distances, P.pending + 1⟩

/-- The profile of a sequence of instructions. -/
def of (l : List Instruction) : Profile := l.foldl count ⟨[], [], 0⟩

theorem of_concat (l : List Instruction) (I : Instruction) : of (l ++ [I]) = (of l).count I := by
  rw [of, List.foldl_append]
  rfl

/-- What a profile adds up to: all instructions, the branches, and the others. -/
theorem of_sums (l : List Instruction) :
    (of l).mnemos = l.map Instruction.getMnemo ∧
    (of l).distances.length = l.countP Instruction.isBType ∧
    (of l).distances.sum + (of l).pending = l.countP fun I => !I.isBType := by
  induction l using List.reverseRecOn with
  | nil => exact ⟨rfl, rfl, rfl⟩
  | append_singleton l I ih =>
    obtain ⟨h1, h2, h3⟩ := ih
    rw [of_concat, count]
    cases hI : I.isBType with
    | true => simp [h1, h2, ← h3, hI]
    | false =>
      simp [h1, h2, ← h3, hI, Nat.add_assoc]

/-- As counters of 32 bits show it. -/
def toStatistics (P : Profile) : Statistics where
  BDist := BitVec.ofNat 32 P.pending
  BDists := Tally.tally 32 (P.distances.map (BitVec.ofNat 32))
  InstCounts := Tally.tally 32 P.mnemos

theorem toStatistics_count (P : Profile) (I : Instruction) :
    (P.count I).toStatistics = P.toStatistics.count I := by
  have hbump : ∀ {κ : Type} [DecidableEq κ] (m : κ → Option (BitVec 32)) k,
      Tally.bump m k = Statistics.bump m k := by
    intro κ _ m k
    rw [Tally.bump, Statistics.bump]
    cases m k <;> rfl
  unfold count Statistics.count toStatistics
  cases I.isBType with
  | true =>
    simp only [if_true, List.map_append, List.map_singleton, Tally.tally_concat, hbump]
    rfl
  | false =>
    simp only [Bool.false_eq_true, if_false, Tally.tally_concat, hbump, BitVec.ofNat_add]
    rfl

/-- Both simulators count the profile. -/
theorem toStatistics_of (l : List Instruction) :
    (of l).toStatistics = l.foldl Statistics.count Statistics.new := by
  induction l using List.reverseRecOn with
  | nil => rfl
  | append_singleton l I ih => rw [of_concat, toStatistics_count, ih, List.foldl_append]; rfl

/-! ## Sums -/

/-- No counter wraps around: not those of the mnemonics, not those of the distances, and not
the distances themselves. -/
structure Fits (P : Profile) : Prop where
  mnemos : Tally.Fits 32 P.mnemos
  buckets : Tally.Fits 32 (P.distances.map (BitVec.ofNat 32))
  distances : ∀ d ∈ P.distances, d < 2 ^ 32
  pending : P.pending < 2 ^ 32

end Profile

/-- The sums over the statistics: `n` instructions, `b` branches and `o` others. -/
structure Statistics.Sums (Stats : Statistics) (n b o : ℕ) : Prop where
  insts : Tally.total Stats.InstCounts (fun _ => 1) = n
  branches : Tally.total Stats.BDists (fun _ => 1) = b
  others : Tally.total Stats.BDists BitVec.toNat + Stats.BDist.toNat = o

/-- The same in the arithmetic of the counters. -/
structure Statistics.SumsMod (Stats : Statistics) (n b o : ℕ) : Prop where
  insts : Tally.total Stats.InstCounts (fun _ => 1) ≡ n [MOD 2 ^ 32]
  branches : Tally.total Stats.BDists (fun _ => 1) ≡ b [MOD 2 ^ 32]
  others : Tally.total Stats.BDists BitVec.toNat + Stats.BDist.toNat ≡ o [MOD 2 ^ 32]

namespace Profile

variable (P : Profile)

theorem sum_ofNat (l : List ℕ) :
    ((l.map (BitVec.ofNat 32)).map BitVec.toNat).sum = (l.map (· % 2 ^ 32)).sum := by
  rw [List.map_map]
  exact congrArg List.sum (List.map_congr_left fun d _ => BitVec.toNat_ofNat d 32)

/-- In the arithmetic of the counters the sums are always right. -/
theorem sumsMod : P.toStatistics.SumsMod P.mnemos.length P.distances.length
    (P.distances.sum + P.pending) := by
  refine ⟨?_, ?_, ?_⟩
  · have h := Tally.total_modEq (w := 32) P.mnemos fun _ => 1
    rwa [List.map_const', List.sum_replicate, smul_eq_mul, Nat.mul_one] at h
  · have h := Tally.total_modEq (w := 32) (P.distances.map (BitVec.ofNat 32)) fun _ => 1
    rwa [List.map_const', List.sum_replicate, smul_eq_mul, Nat.mul_one, List.length_map] at h
  · have h := Tally.total_modEq (w := 32) (P.distances.map (BitVec.ofNat 32)) BitVec.toNat
    rw [sum_ofNat] at h
    refine (h.trans (List.sum_nat_mod _ _).symm).add ?_
    show (BitVec.ofNat 32 P.pending).toNat ≡ P.pending [MOD 2 ^ 32]
    rw [BitVec.toNat_ofNat]
    exact Nat.mod_modEq _ _

/-- A sum of remainders and one more is the sum exactly if nothing is taken off. -/
theorem sum_mod_add_iff (l : List ℕ) (p m : ℕ) (hm : 0 < m) :
    (l.map (· % m)).sum + p % m = l.sum + p ↔ (∀ d ∈ l, d < m) ∧ p < m := by
  have hle : ∀ l : List ℕ, (l.map (· % m)).sum ≤ l.sum := fun l =>
    (List.sum_le_sum fun d _ => Nat.mod_le d m).trans_eq (by simp)
  induction l with
  | nil => simp [Nat.mod_eq_iff_lt hm.ne']
  | cons d l ih =>
    have hd := Nat.mod_le d m
    have hl := hle l
    have hp := Nat.mod_le p m
    have hlt : d % m = d ↔ d < m := Nat.mod_eq_iff_lt hm.ne'
    rw [List.forall_mem_cons, and_assoc, List.map_cons, List.sum_cons, List.sum_cons]
    refine Iff.trans ?_ (and_congr hlt ih)
    omega

/-- **When the sums are right**: exactly if no counter wraps around. -/
theorem sums_iff : P.toStatistics.Sums P.mnemos.length P.distances.length
    (P.distances.sum + P.pending) ↔ P.Fits := by
  have hothers : Tally.Fits 32 (P.distances.map (BitVec.ofNat 32)) →
      (Tally.total P.toStatistics.BDists BitVec.toNat + P.toStatistics.BDist.toNat =
        P.distances.sum + P.pending ↔ (∀ d ∈ P.distances, d < 2 ^ 32) ∧ P.pending < 2 ^ 32) := by
    intro hfit
    rw [← sum_mod_add_iff _ _ _ (Nat.two_pow_pos 32), ← sum_ofNat, ← Tally.total_eq hfit,
      ← BitVec.toNat_ofNat]
    rfl
  have hbuckets := Tally.total_one_iff (w := 32) (P.distances.map (BitVec.ofNat 32))
  rw [List.length_map] at hbuckets
  constructor
  · intro h
    have hfit := hbuckets.mp h.branches
    obtain ⟨hd, hp⟩ := (hothers hfit).mp h.others
    exact ⟨(Tally.total_one_iff _).mp h.insts, hfit, hd, hp⟩
  · intro h
    exact ⟨(Tally.total_one_iff _).mpr h.mnemos, hbuckets.mpr h.buckets,
      (hothers h.buckets).mpr ⟨h.distances, h.pending⟩⟩

end Profile

/-! ## The instructions of a run -/

namespace Hart

/-- The first `k` instructions of the run. -/
def insts (h : Hart) : ℕ → List Instruction
  | 0 => []
  | k + 1 => h.insts k ++ match (h.after k).fetch with
    | .ok (some I) => [I]
    | _ => []

variable {h : Hart} {k n : ℕ} {I : Instruction}

theorem insts_of_some (hf : (h.after k).fetch = .ok (some I)) :
    h.insts (k + 1) = h.insts k ++ [I] := by
  simp only [insts, hf]

theorem insts_of_none (hf : (h.after n).fetch = .ok none) (hk : n ≤ k) : h.insts k = h.insts n := by
  induction k, hk using Nat.le_induction with
  | base => rfl
  | succ k hk ih =>
    have hfk : (h.after k).fetch = .ok none := (congrArg fetch (after_of_none hf hk)).trans hf
    simp only [insts, hfk, List.append_nil, ih]

theorem length_insts (hl : h.Live n) (hk : k ≤ n) : (h.insts k).length = k := by
  induction k with
  | zero => rfl
  | succ k ih =>
    obtain ⟨I, hf⟩ := hl k hk
    rw [insts_of_some hf, List.length_append, ih (by omega), List.length_singleton]

end Hart

/-- The instruction-level simulator counts the instructions of the reference. -/
theorem Simulator.after_Stats {h : Hart} {n : ℕ} (hd : Regular h n) (hcsr : h.CSRFree n)
    (hlive : h.Live n) {s : Simulator} (hs : s.hart = h) (hStats : s.Stats = Statistics.new) {k : ℕ}
    (hk : k ≤ n) : ∃ a X, s.after k = some a ∧ a.hart = { h.after k with States := X } ∧
      a.Stats = (Profile.of (h.insts k)).toStatistics := by
  induction k with
  | zero => exact ⟨s, h.States, rfl, hs, hStats⟩
  | succ k ih =>
    obtain ⟨a, X, ha, hX, hSt⟩ := ih (by omega)
    obtain ⟨I, b, X', hf, hb, hX', hSt'⟩ := after_next hd hcsr hlive (by omega) ha hX
    refine ⟨b, X', hb, hX', ?_⟩
    rw [hSt', hSt, Hart.insts_of_some hf, Profile.of_concat, Profile.toStatistics_count]

end RipSim
