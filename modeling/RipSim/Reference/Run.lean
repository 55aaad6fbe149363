import RipSim.Reference.Sequential
import RipSim.Pipeline.ZeroRegister
import RipSim.Encoding.Decoded
import Mathlib.Data.ENat.Basic

/-!
# Sequential runs

`Hart.after h k` is the state `h` reaches after `k` instructions of the reference.
It stays where it is once the word at the PC is undecodable or its instruction
returns an exception, so it is defined for every `k`.

`Domain h N` says that the first `N` instructions from `h` on are in the domain of
the comparison, where `N` may be infinite: each is supported, none leaves a nonzero
value for `x0` in front of a reader of `x0`, and no store changes a word that is
fetched.  `Regular h N` is the same with stores to the console let in; the proofs work
with it.
-/

namespace RipSim

/-! ## The run from a state -/

namespace Hart

/-- One instruction of the reference, if there is one and it raises no exception. -/
def next (h : Hart) : Hart :=
  match h.fetch with
  | .ok (some I) =>
    match I.execRef h with
    | .ok (none, h') => h'
    | _ => h
  | _ => h

/-- The state after `k` instructions. -/
def after (h : Hart) : ℕ → Hart
  | 0 => h
  | k + 1 => (h.after k).next

theorem after_succ (h : Hart) (k : ℕ) : h.after (k + 1) = (h.after k).next := rfl

theorem next_of_exec {h h' : Hart} {I : Instruction} (hf : h.fetch = .ok (some I))
    (he : I.execRef h = .ok (none, h')) : h.next = h' := by
  unfold next
  rw [hf]
  dsimp only
  rw [he]

theorem next_of_none {h : Hart} (hf : h.fetch = .ok none) : h.next = h := by
  unfold next
  rw [hf]

/-- Once the run is over it stays where it is. -/
theorem after_of_none {h : Hart} {m k : ℕ} (hm : (h.after m).fetch = .ok none) (hk : m ≤ k) :
    h.after k = h.after m := by
  induction k, hk using Nat.le_induction with
  | base => rfl
  | succ k _ ih => rw [after_succ, ih, next_of_none hm]

theorem fetch_of_word {h : Hart} {w : Word} (hw : h.Mem.readWord h.PC = .ok w) :
    h.fetch = .ok (Decoder.decode w) := by
  unfold fetch
  rw [hw]
  rfl

theorem word_of_fetch {h : Hart} {o : Option Instruction} (hf : h.fetch = .ok o) :
    ∃ w, h.Mem.readWord h.PC = .ok w ∧ Decoder.decode w = o := by
  unfold fetch at hf
  cases hw : h.Mem.readWord h.PC with
  | error e => rw [hw] at hf; exact nomatch hf
  | ok w =>
    rw [hw] at hf
    injection hf with hf
    exact ⟨w, rfl, hf⟩

end Hart

/-- A plain instruction raises no exception. -/
theorem Instruction.execRef_none {I : Instruction} {h : Hart} {p : Option Exception × Hart}
    (hp : I.isPlain = true) (he : I.execRef h = .ok p) : p.1 = none := by
  cases I with
  | IInstruction IT Rd Rs1 Imm =>
    have hload : ∀ {w : ℕ} (r : Except Fault (BitVec w)) (f : BitVec w → RegVal),
        (r >>= fun V => Except.ok (none, h.writeRd Rd (f V)) :
          Except Fault (Option Exception × Hart)) = .ok p → p.1 = none := by
      intro w r f hr
      cases r with
      | error e => exact nomatch hr
      | ok V =>
        injection hr with hr
        exact hr ▸ rfl
    cases IT with
    | lb => exact hload (h.Mem.readByte _) (·.signExtend 32) he
    | lh => exact hload (h.Mem.readHalfWord _) (·.signExtend 32) he
    | lw => exact hload (h.Mem.readWord _) id he
    | lbu => exact hload (h.Mem.readByte _) (·.setWidth 32) he
    | lhu => exact hload (h.Mem.readHalfWord _) (·.setWidth 32) he
    | ecall | ebreak | uret | sret | mret | ext | extx => exact absurd hp Bool.false_ne_true
    | _ =>
      injection he with he
      exact he ▸ rfl
  | SInstruction ST Rs1 Rs2 Imm =>
    change h.execS ST Rs1 Rs2 Imm = _ at he
    unfold Hart.execS at he
    dsimp only at he
    split_ifs at he
    · injection he with he
      exact he ▸ rfl
    · injection he with he
      exact he ▸ rfl
    · have hstore : ∀ r : Except Fault Memory,
          (r >>= fun M => Except.ok (none, { h with Mem := M, PC := h.PC + 4 }) :
            Except Fault (Option Exception × Hart)) = .ok p → p.1 = none := by
        intro r hr
        cases r with
        | error e => exact nomatch hr
        | ok M =>
          injection hr with hr
          exact hr ▸ rfl
      cases ST with
      | sb => exact hstore (h.Mem.writeByte _ _) he
      | sh => exact hstore (h.Mem.writeHalfWord _ _) he
      | sw => exact hstore (h.Mem.writeWord _ _) he
  | UInstruction UT =>
    cases UT <;>
    · injection he with he
      exact he ▸ rfl
  | JInstruction JT =>
    cases JT
    injection he with he
    exact he ▸ rfl
  | _ =>
    injection he with he
    exact he ▸ rfl

/-! ## The domain of the comparison -/

/-- The first `N` instructions from `h` on are in the domain of the comparison. -/
structure Domain (h : Hart) (N : ℕ∞) : Prop where
  machine : h.Mode = .Machine
  /-- The words of the run are in the DRAM, the one after the last instruction included. -/
  inDRAM : ∀ k : ℕ, k ≤ N → ∃ o, (h.after k).fetch = .ok o
  supported : ∀ (k : ℕ) I, k < N → (h.after k).fetch = .ok (some I) → Supported I (h.after k)
  /-- Only a jump may leave a nonzero value for `x0` ahead of a reader of `x0`. -/
  quiet : ∀ (k d : ℕ) I J, d = 1 ∨ d = 2 → (k + d : ℕ) < N →
    (h.after k).fetch = .ok (some I) → (h.after (k + d)).fetch = .ok (some J) →
    I.hasRd = true → I.rd = 0 → I.isJump = false → (h.after k).result I ≠ 0 → ¬ J.readsZero
  /-- No instruction changes a word that is fetched. -/
  frozen : ∀ j k : ℕ, j ≤ N → k < N → (h.after (k + 1)).Mem.readWord (h.after j).PC =
    (h.after k).Mem.readWord (h.after j).PC

/-- The first `N` instructions from `h` on are such that the proofs apply to them. -/
structure Regular (h : Hart) (N : ℕ∞) : Prop where
  machine : h.Mode = .Machine
  inDRAM : ∀ k : ℕ, k ≤ N → ∃ o, (h.after k).fetch = .ok o
  admitted : ∀ (k : ℕ) I, k < N → (h.after k).fetch = .ok (some I) → Admitted I (h.after k)
  quiet : ∀ (k d : ℕ) I J, d = 1 ∨ d = 2 → (k + d : ℕ) < N →
    (h.after k).fetch = .ok (some I) → (h.after (k + d)).fetch = .ok (some J) →
    I.hasRd = true → I.rd = 0 → I.isJump = false → (h.after k).result I ≠ 0 → ¬ J.readsZero
  frozen : ∀ j k : ℕ, j ≤ N → k < N → (h.after (k + 1)).Mem.readWord (h.after j).PC =
    (h.after k).Mem.readWord (h.after j).PC

theorem Domain.regular {h : Hart} {N : ℕ∞} (hd : Domain h N) : Regular h N where
  machine := hd.machine
  inDRAM := hd.inDRAM
  admitted k I hk hf := (hd.supported k I hk hf).admitted
  quiet := hd.quiet
  frozen := hd.frozen

namespace Regular

variable {h : Hart} {N : ℕ∞}

theorem mono {M : ℕ∞} (hd : Regular h N) (hM : M ≤ N) : Regular h M where
  machine := hd.machine
  inDRAM k hk := hd.inDRAM k (hk.trans hM)
  admitted k I hk := hd.admitted k I (hk.trans_le hM)
  quiet k d I J hd' hk := hd.quiet k d I J hd' (hk.trans_le hM)
  frozen j k hj hk := hd.frozen j k (hj.trans hM) (hk.trans_le hM)

/-- A run that has ended stays in the domain. -/
theorem extend {n : ℕ} (hd : Regular h n) (hend : (h.after n).fetch = .ok none) : Regular h ⊤ := by
  have hover : ∀ {k : ℕ}, n ≤ k → (h.after k).fetch = .ok none := fun hk =>
    (congrArg Hart.fetch (Hart.after_of_none hend hk)).trans hend
  have hlt : ∀ {k : ℕ} {I : Instruction}, (h.after k).fetch = .ok (some I) → (k : ℕ∞) < n := by
    intro k I hf
    by_contra hk
    exact nomatch hf.symm.trans (hover (by exact_mod_cast not_lt.mp hk))
  refine ⟨hd.machine, ?_, ?_, ?_, ?_⟩
  · intro k _
    rcases Nat.le_total k n with hk | hk
    · exact hd.inDRAM k (by exact_mod_cast hk)
    · exact ⟨none, hover hk⟩
  · exact fun k I _ hf => hd.admitted k I (hlt hf) hf
  · exact fun k d I J hd' _ hf hf' => hd.quiet k d I J hd' (hlt hf') hf hf'
  · intro j k _ _
    rcases Nat.lt_or_ge k n with hk | hk
    · have hk : (k : ℕ∞) < n := by exact_mod_cast hk
      rcases Nat.le_total j n with hj | hj
      · exact hd.frozen j k (by exact_mod_cast hj) hk
      · rw [Hart.after_of_none hend hj]
        exact hd.frozen n k le_rfl hk
    · rw [Hart.after_of_none hend (hk.trans (Nat.le_succ k)), Hart.after_of_none hend hk]

/-- The instruction that leads from one state of the run to the next, and its effect. -/
theorem effect_of_mode (hd : Regular h N) {k : ℕ} {I : Instruction} (hk : k < N)
    (hm : (h.after k).Mode = .Machine) (hf : (h.after k).fetch = .ok (some I)) :
    Effect I (h.after k) (h.after (k + 1)) := by
  have hs := hd.admitted k I hk hf
  obtain ⟨⟨e, h'⟩, he⟩ := hs.access
  obtain rfl : e = none := Instruction.execRef_none hs.plain he
  rw [Hart.after_succ, Hart.next_of_exec hf he]
  exact execRef_effect hs (by rw [hm]; decide) he

/-- The whole run is in Machine mode. -/
theorem mode (hd : Regular h N) {k : ℕ} (hk : k ≤ N) : (h.after k).Mode = .Machine := by
  induction k with
  | zero => exact hd.machine
  | succ k ih =>
    have hlt : (k : ℕ∞) < N := lt_of_lt_of_le (by exact_mod_cast Nat.lt_succ_self k) hk
    have ih := ih hlt.le
    cases hf : (h.after k).fetch with
    | error e =>
      rw [Hart.after_succ, Hart.next, hf]
      exact ih
    | ok o =>
      cases o with
      | none => rw [Hart.after_succ, Hart.next_of_none hf]; exact ih
      | some I => rw [(hd.effect_of_mode hlt ih hf).Mode]; exact ih

theorem effect (hd : Regular h N) {k : ℕ} {I : Instruction} (hk : k < N)
    (hf : (h.after k).fetch = .ok (some I)) : Effect I (h.after k) (h.after (k + 1)) :=
  hd.effect_of_mode hk (hd.mode hk.le) hf

/-- The words that are fetched stay the same over the whole run. -/
theorem readWord (hd : Regular h N) {i j : ℕ} (hi : i ≤ N) (hj : j ≤ N) :
    (h.after i).Mem.readWord (h.after j).PC = h.Mem.readWord (h.after j).PC := by
  induction i with
  | zero => rfl
  | succ i ih =>
    have hlt : (i : ℕ∞) < N := lt_of_lt_of_le (by exact_mod_cast Nat.lt_succ_self i) hi
    rw [hd.frozen j i hj hlt, ih hlt.le]

end Regular

/-! ## What stands at an address -/

/-- Wherever the run is at `x` in its first `N` steps, it finds the instruction `o` there. -/
def Hart.Holds (h : Hart) (N : ℕ∞) (x : Address) (o : Option Instruction) : Prop :=
  ∀ j : ℕ, j ≤ N → (h.after j).PC = x → (h.after j).fetch = .ok o

/-- A word fetched from the memory of any state of the run is the one the run finds. -/
theorem Regular.holds {h : Hart} {N : ℕ∞} (hd : Regular h N) {i : ℕ} (hi : i ≤ N) {x : Address}
    {w : Word} (hw : (h.after i).Mem.readWord x = .ok w) : h.Holds N x (Decoder.decode w) := by
  rintro j hj rfl
  apply Hart.fetch_of_word
  rw [hd.readWord hj hj, ← hd.readWord hi hj, hw]

end RipSim
