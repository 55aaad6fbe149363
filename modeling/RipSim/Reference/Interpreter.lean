import RipSim.Reference.Run
import RipSim.Pipeline.Trace

/-!
# Runs of the instruction-level simulator

`Simulator.after s k` is the simulator after `k` instructions, while it runs, and
`Simulator.executed` what the instruction after that does.  Without csr instructions the
counter that the simulator keeps is never read, so its run is the sequential reference
(`Simulator.after_hart`).
-/

namespace RipSim

/-! ## Runs -/

namespace Simulator

/-- The simulator after `k` iterations of the loop of `run`, if it gets that far. -/
def after (s : Simulator) : ℕ → Option Simulator
  | 0 => some s
  | k + 1 => (s.after k).bind fun s => (s.iterate none).toOption.join

/-- The instruction that iteration `k` executes, if it gets that far. -/
def executed (s : Simulator) (k : ℕ) : Option Commit :=
  match s.after k, s.after (k + 1) with
  | some a, some b =>
    match a.hart.fetch with
    | .ok (some I) => some ⟨a.hart.PC, I, b.hart.GPRegs⟩
    | _ => none
  | _, _ => none

variable {s a b : Simulator} {k : ℕ} {I : Instruction} {h : Hart}

theorem after_succ (hk : s.after k = some a) :
    s.after (k + 1) = (a.iterate none).toOption.join := by
  change (s.after k).bind _ = _
  rw [hk]
  rfl

theorem executed_eq (ha : s.after k = some a) (hb : s.after (k + 1) = some b)
    (hf : a.hart.fetch = .ok (some I)) :
    s.executed k = some ⟨a.hart.PC, I, b.hart.GPRegs⟩ := by
  unfold executed
  rw [ha, hb]
  dsimp only
  rw [hf]

theorem executed_PC {e : Commit} (ha : s.after k = some a) (he : s.executed k = some e) :
    e.PC = a.hart.PC := by
  unfold executed at he
  rw [ha] at he
  split at he
  · rename_i ha' _
    injection ha' with ha'
    split at he
    · injection he with he
      rw [← he, ha']
    · exact nomatch he
  · exact nomatch he

/-- Once the loop has been left nothing is executed. -/
theorem executed_none (hk : s.after (k + 1) = none) (j : ℕ) : s.executed (k + j) = none := by
  have hafter : ∀ i, s.after (k + 1 + i) = none := by
    intro i
    induction i with
    | zero => exact hk
    | succ i ih =>
      change (s.after (k + 1 + i)).bind _ = none
      rw [ih]
      rfl
  unfold executed
  rw [show k + j + 1 = k + 1 + j by omega, hafter j]
  cases s.after (k + j) <;> rfl

/-- An iteration, by what `exec` returns. -/
theorem iterate_eq (hf : s.hart.fetch = .ok (some I)) {E : Option Exception}
    (he : I.exec s.hart = .ok (E, h)) (hE : E = none ∨ E = some .R1) :
    s.iterate none = .ok (some (match E with
      | none => s.afterInst I h
      | some _ => { s with hart := { h with Mode := .Epilogue } })) := by
  obtain ⟨w, hw, hI⟩ := Hart.word_of_fetch hf
  unfold iterate
  simp only [bind, Except.bind, pure, Except.pure, hw, hI, he]
  rcases hE with rfl | rfl <;> rfl

/-- The loop is left at an undecodable word. -/
theorem iterate_none (hf : s.hart.fetch = .ok none) : s.iterate none = .ok none := by
  obtain ⟨w, hw, hI⟩ := Hart.word_of_fetch hf
  unfold iterate
  simp only [bind, Except.bind, pure, Except.pure, hw, hI]

end Simulator

/-- The instruction `extx`: the decoder gives it no other fields. -/
def extx : Instruction := .IInstruction .extx 0 0 0

/-! ## Without csr instructions -/

/-- An instruction that is not a csr instruction works in the same way whatever the CSRs. -/
theorem Instruction.exec_States {I : Instruction} (hp : I.isPlain = true) (hc : I.isCSR = false)
    (h : Hart) (X : CSRs) :
    I.exec { h with States := X } = (fun p => (p.1, { p.2 with States := X })) <$> I.exec h := by
  cases I with
  | IInstruction IT Rd Rs1 Imm =>
    have hload : ∀ {w : ℕ} (r : Except Fault (BitVec w)) (f : BitVec w → RegVal),
        (r >>= fun V => Except.ok (none, { h with States := X }.writeRd Rd (f V)) :
          Except Fault (Option Exception × Hart)) =
        (fun p => (p.1, { p.2 with States := X })) <$>
          (r >>= fun V => Except.ok (none, h.writeRd Rd (f V))) := by
      intro w r f
      cases r <;> rfl
    cases IT with
    | lb => exact hload (h.Mem.readByte _) (·.signExtend 32)
    | lh => exact hload (h.Mem.readHalfWord _) (·.signExtend 32)
    | lw => exact hload (h.Mem.readWord _) id
    | lbu => exact hload (h.Mem.readByte _) (·.setWidth 32)
    | lhu => exact hload (h.Mem.readHalfWord _) (·.setWidth 32)
    | csrrw | csrrs | csrrc | csrrwi | csrrsi | csrrci => exact absurd hc.symm Bool.false_ne_true
    | ecall | ebreak | uret | sret | mret | ext | extx => exact absurd hp Bool.false_ne_true
    | _ => rfl
  | SInstruction ST Rs1 Rs2 Imm =>
    have hstore : ∀ r : Except Fault Memory,
        (r >>= fun M => Except.ok (none, { h with States := X, Mem := M, PC := h.PC + 4 }) :
          Except Fault (Option Exception × Hart)) =
        (fun p => (p.1, { p.2 with States := X })) <$>
          (r >>= fun M => Except.ok (none, { h with Mem := M, PC := h.PC + 4 })) := by
      intro r
      cases r <;> rfl
    change ({ h with States := X } : Hart).execS ST Rs1 Rs2 Imm = _ <$> h.execS ST Rs1 Rs2 Imm
    unfold Hart.execS
    dsimp only
    split_ifs
    · rfl
    · rfl
    · cases ST with
      | sb => exact hstore (h.Mem.writeByte _ _)
      | sh => exact hstore (h.Mem.writeHalfWord _ _)
      | sw => exact hstore (h.Mem.writeWord _ _)
  | UInstruction UT => cases UT <;> rfl
  | JInstruction JT => cases JT; rfl
  | _ => rfl

/-- Of the first `n` instructions of the run none is a csr instruction. -/
def Hart.CSRFree (h : Hart) (n : ℕ) : Prop :=
  ∀ k < n, ∀ I, (h.after k).fetch = .ok (some I) → I.isCSR = false

/-- The run has not ended before `n` instructions. -/
def Hart.Live (h : Hart) (n : ℕ) : Prop := ∀ k < n, ∃ I, (h.after k).fetch = .ok (some I)

theorem Regular.live {h : Hart} {n : ℕ} {K : Instruction} (hd : Regular h n)
    (hK : (h.after n).fetch = .ok (some K)) : h.Live n := by
  intro k hk
  obtain ⟨o, ho⟩ := hd.inDRAM k (by exact_mod_cast hk.le)
  cases o with
  | none =>
    rw [Hart.after_of_none ho hk.le] at hK
    exact nomatch ho.symm.trans hK
  | some I => exact ⟨I, ho⟩

theorem Instruction.execRef_of_not_isCSR {I : Instruction} (hc : I.isCSR = false) (h : Hart) :
    I.execRef h = I.exec h := by
  cases I with
  | IInstruction IT =>
    change (if IT.isCSR then _ else _) = _
    rw [if_neg (by rw [show IT.isCSR = false from hc]; exact Bool.false_ne_true)]
  | _ => rfl

namespace Simulator

/-- An iteration executes the next instruction of the reference and counts it. -/
theorem after_next {h : Hart} {n : ℕ} (hd : Regular h n) (hcsr : h.CSRFree n) (hlive : h.Live n)
    {s a : Simulator} {k : ℕ} {X : CSRs} (hk : k < n) (ha : s.after k = some a)
    (hX : a.hart = { h.after k with States := X }) :
    ∃ I b X', (h.after k).fetch = .ok (some I) ∧ s.after (k + 1) = some b ∧
      b.hart = { h.after (k + 1) with States := X' } ∧ b.Stats = a.Stats.count I := by
  obtain ⟨I, ho⟩ := hlive k hk
  have hsup := hd.admitted k I (by exact_mod_cast hk) ho
  obtain ⟨⟨E, h'⟩, he⟩ := hsup.access
  obtain rfl : E = none := Instruction.execRef_none hsup.plain he
  have hc := hcsr k hk I ho
  have hfa : a.hart.fetch = .ok (some I) := by
    rw [hX]
    exact ho
  have hexec : I.exec a.hart = .ok (none, { h' with States := X }) := by
    rw [hX, Instruction.exec_States hsup.plain hc, ← Instruction.execRef_of_not_isCSR hc, he]
    rfl
  refine ⟨I, a.afterInst I { h' with States := X }, X.incCYCLE, ho, ?_, ?_, rfl⟩
  · rw [after_succ ha, iterate_eq hfa hexec (.inl rfl)]
    rfl
  · rw [Hart.after_succ, Hart.next_of_exec ho he]
    rfl

/-- **The simulator runs the sequential reference**, up to the CSRs. -/
theorem after_hart {h : Hart} {n : ℕ} (hd : Regular h n) (hcsr : h.CSRFree n)
    (hlive : h.Live n) {s : Simulator} (hs : s.hart = h) {k : ℕ} (hk : k ≤ n) :
    ∃ a X, s.after k = some a ∧ a.hart = { h.after k with States := X } := by
  induction k with
  | zero => exact ⟨s, h.States, rfl, hs⟩
  | succ k ih =>
    obtain ⟨a, X, ha, hX⟩ := ih (by omega)
    obtain ⟨I, b, X', -, hb, hX', -⟩ := after_next hd hcsr hlive (by omega) ha hX
    exact ⟨b, X', hb, hX'⟩

/-- What `extx` does in the instruction-level simulator. -/
theorem executed_extx {h : Hart} {n : ℕ} (hd : Regular h n) (hcsr : h.CSRFree n)
    (hK : (h.after n).fetch = .ok (some extx)) {s : Simulator} (hs : s.hart = h) :
    s.executed n = some ⟨(h.after n).PC, extx, (h.after n).GPRegs⟩ ∧
    ∃ b X, s.after (n + 1) = some b ∧
      b.hart = { h.after n with PC := (h.after n).PC + 4, Mode := .Epilogue, States := X } := by
  obtain ⟨a, X, ha, hX⟩ := after_hart hd hcsr (hd.live hK) hs (Nat.le_refl n)
  have hfa : a.hart.fetch = .ok (some extx) := by
    rw [hX]
    exact hK
  have hb : s.after (n + 1) = some { a with hart := { a.hart with
      PC := a.hart.PC + 4, Mode := .Epilogue } } := by
    rw [after_succ ha, iterate_eq hfa (E := some .R1) rfl (.inr rfl)]
    rfl
  refine ⟨?_, _, X, hb, ?_⟩
  · rw [executed_eq ha hb hfa, hX]
  · rw [hX]

end Simulator

end RipSim
