import Mathlib.Data.List.Basic

/-!
# A server, a client and two channels

A server prints lines, asks questions, and now and then waits for a token, whatever it is; a
client nudges the server before every line that it reads, and answers the questions.  Either may
run ahead of the other.  The lines are a queue; what the client writes goes through a wire that
may hold back a token until something follows it (`Wire`), so that an answer is followed by a
filler.

Every interleaving is the sequential dialogue in which each question is answered at once
(`direct`): no answer is taken for a nudge or lost, nobody waits forever, and the run goes on as
fast as the parties take steps (`Steps.good`, `Good.progress`).
-/

namespace Dialogue

/-! ## The parties -/

/-- What the client writes. -/
inductive Token (A : Type*) where
  | nudge
  | answer (a : A)
  | filler

/-- Whether a token says nothing. -/
def Token.Idle {A : Type*} : Token A → Prop
  | .answer _ => False
  | _ => True

/-- What the server takes a token for when it waits for an answer. -/
inductive Reading (A : Type*) where
  | other
  | answer (a : A)
  | garbled

/-- What the server does next: something of its own, print a line, print a question and wait for
the answer, wait for a token, or nothing. -/
inductive Act (Q M A : Type*) where
  | work (q : Q)
  | say (m : M) (q : Q)
  | ask (m : M) (k : A → Q) (garbled : Q)
  | poll (q : Q)
  | halt

/-- The channel to the server, and the tokens in it that the server has not read.  A token can be
read at once, except that an answer has to be followed by a filler. -/
structure Wire (C A : Type*) where
  empty : C
  write : C → Token A → C
  read : C → Option (Reading A × C)
  Holds : C → List (Token A) → Prop
  holds_empty : Holds empty []
  holds_write : ∀ {c ts} t, Holds c ts → Holds (write c t) (ts ++ [t])
  read_nil : ∀ {c}, Holds c [] → read c = none
  read_open : ∀ {c a}, Holds c [.answer a] → read c = none
  read_idle : ∀ {c t ts}, t.Idle → Holds c (t :: ts) →
    ∃ c', read c = some (.other, c') ∧ Holds c' ts
  read_answer : ∀ {c a ts}, Holds c (.answer a :: .filler :: ts) →
    ∃ c', read c = some (.answer a, c') ∧ Holds c' (.filler :: ts)

variable {Q M A C : Type*}

/-- The server: at a state of its program, or waiting for an answer. -/
inductive Server (Q A : Type*) where
  | run (q : Q)
  | awaiting (k : A → Q) (garbled : Q)

/-- What the client is about to do. -/
inductive Phase (A : Type*) where
  | nudging
  | listening
  | answering (a : A)
  | filling
  | gone

/-- The two parties and the channels between them. -/
structure System (Q M A C : Type*) where
  server : Server Q A
  toServer : C
  toClient : List M
  phase : Phase A
  heard : List M

section Steps

variable (act : Q → Act Q M A) (question : M → Bool) (reply : List M → A) (W : Wire C A)

/-- A step of either party. -/
inductive Step : System Q M A C → System Q M A C → Prop
  | work {s q q'} (hs : s.server = .run q) (ha : act q = .work q') :
    Step s { s with server := .run q' }
  | say {s q m q'} (hs : s.server = .run q) (ha : act q = .say m q') :
    Step s { s with server := .run q', toClient := s.toClient ++ [m] }
  | ask {s q m k g} (hs : s.server = .run q) (ha : act q = .ask m k g) :
    Step s { s with server := .awaiting k g, toClient := s.toClient ++ [m] }
  | poll {s q q' r c} (hs : s.server = .run q) (ha : act q = .poll q')
    (hr : W.read s.toServer = some (r, c)) : Step s { s with server := .run q', toServer := c }
  | skip {s k g c} (hs : s.server = .awaiting k g) (hr : W.read s.toServer = some (.other, c)) :
    Step s { s with toServer := c }
  | take {s k g a c} (hs : s.server = .awaiting k g)
    (hr : W.read s.toServer = some (.answer a, c)) :
    Step s { s with server := .run (k a), toServer := c }
  | fail {s k g c} (hs : s.server = .awaiting k g) (hr : W.read s.toServer = some (.garbled, c)) :
    Step s { s with server := .run g, toServer := c }
  | nudge {s} (hp : s.phase = .nudging) :
    Step s { s with toServer := W.write s.toServer .nudge, phase := .listening }
  | hear {s m ms} (hp : s.phase = .listening) (hl : s.toClient = m :: ms) :
    Step s { s with
      toClient := ms
      heard := s.heard ++ [m]
      phase := if question m then .answering (reply (s.heard ++ [m])) else .nudging }
  | answer {s a} (hp : s.phase = .answering a) :
    Step s { s with toServer := W.write s.toServer (.answer a), phase := .filling }
  | fill {s} (hp : s.phase = .filling) :
    Step s { s with toServer := W.write s.toServer .filler, phase := .nudging }
  | close {s q} (hp : s.phase = .listening) (hl : s.toClient = []) (hs : s.server = .run q)
    (ha : act q = .halt) : Step s { s with phase := .gone }

/-- A run of so many steps. -/
inductive Steps (s : System Q M A C) : ℕ → System Q M A C → Prop
  | refl : Steps s 0 s
  | tail {k t u} (h : Steps s k t) (ht : Step act question reply W t u) : Steps s (k + 1) u

/-- The beginning. -/
def System.init (q₀ : Q) : System Q M A C := ⟨.run q₀, W.empty, [], .nudging, []⟩

/-! ## The sequential dialogue -/

/-- One step of the server when each question is answered at once: the lines printed so far, and
the state. -/
def next (x : List M × Q) : Option (List M × Q) :=
  match act x.2 with
  | .work q => some (x.1, q)
  | .say m q => some (x.1 ++ [m], q)
  | .ask m k _ => some (x.1 ++ [m], k (reply (x.1 ++ [m])))
  | .poll q => some (x.1, q)
  | .halt => none

/-- The sequential dialogue after `n` steps. -/
def direct (q₀ : Q) : ℕ → Option (List M × Q)
  | 0 => some ([], q₀)
  | n + 1 => (direct q₀ n).bind (next act reply)

end Steps

theorem direct_succ {act : Q → Act Q M A} {reply : List M → A} {q₀ : Q} {n : ℕ}
    {x y : List M × Q} (hx : direct act reply q₀ n = some x) (hy : next act reply x = some y) :
    direct act reply q₀ (n + 1) = some y := by
  rw [direct, hx, Option.bind_some, hy]

/-! ## Programs that keep to the protocol -/

/-- The lines that are questions are those that ask, and a line is printed between two polls:
`Ready` says that the server may wait for a token. -/
structure Polite (act : Q → Act Q M A) (question : M → Bool) (Ready : Q → Prop) : Prop where
  say : ∀ {q m q'}, act q = .say m q' → question m = false
  ask : ∀ {q m k g}, act q = .ask m k g → question m = true
  work : ∀ {q q'}, act q = .work q' → Ready q' → Ready q
  poll : ∀ {q q'}, act q = .poll q' → Ready q ∧ ¬Ready q'

/-- How far the answer `a` to the question in the air has come: the client has still to read the
question, or the answer is to be written, has been written, has been completed. -/
inductive Exchange (question : M → Bool) (a : A) : List M → Phase A → List (Token A) → Prop
  | unheard {ms m ts p} (hms : ∀ x ∈ ms, question x = false) (hm : question m = true)
    (hts : ∀ t ∈ ts, t.Idle) (hp : p = .nudging ∨ p = .listening) :
    Exchange question a (ms ++ [m]) p ts
  | heard {ts} (hts : ∀ t ∈ ts, t.Idle) : Exchange question a [] (.answering a) ts
  | written {ts} (hts : ∀ t ∈ ts, t.Idle) : Exchange question a [] .filling (ts ++ [.answer a])
  | complete {ts p us} (hts : ∀ t ∈ ts, t.Idle) (hus : ∀ t ∈ us, t.Idle)
    (hp : p = .nudging ∨ p = .listening) :
    Exchange question a [] p (ts ++ .answer a :: .filler :: us)

variable (act : Q → Act Q M A) (question : M → Bool) (reply : List M → A) (W : Wire C A)
  (Ready : Q → Prop) (q₀ : Q)

/-- The states between questions. -/
structure Running (n : ℕ) (ts : List (Token A)) (q : Q) (s : System Q M A C) : Prop where
  direct : direct act reply q₀ n = some (s.heard ++ s.toClient, q)
  idle : ∀ t ∈ ts, t.Idle
  plain : ∀ m ∈ s.toClient, question m = false
  phase : s.phase = .nudging ∨ s.phase = .listening ∨
    s.phase = .gone ∧ s.toClient = [] ∧ act q = .halt
  ready : Ready q → ts ≠ [] ∨ s.phase = .nudging ∨ s.toClient ≠ [] ∨ s.phase = .gone

/-- The states in which the server waits for an answer. -/
structure Waiting (n : ℕ) (ts : List (Token A)) (k : A → Q) (g : Q) (s : System Q M A C) :
    Prop where
  direct : ∃ said q m, direct act reply q₀ n = some (said, q) ∧ act q = .ask m k g ∧
    s.heard ++ s.toClient = said ++ [m]
  exchange : Exchange question (reply (s.heard ++ s.toClient)) s.toClient s.phase ts

/-- The server is `n` steps into the sequential dialogue, and the tokens `ts` are in the channel. -/
def Good (n : ℕ) (ts : List (Token A)) (s : System Q M A C) : Prop :=
  W.Holds s.toServer ts ∧
    match s.server with
    | .run q => Running act question reply Ready q₀ n ts q s
    | .awaiting k g => Waiting act question reply q₀ n ts k g s

/-- Steps that the client may take before the server has to. -/
def Phase.weight : Phase A → ℕ
  | .gone => 0
  | .listening => 1
  | .nudging => 3
  | .filling => 5
  | .answering _ => 7

theorem Phase.weight_le (p : Phase A) : p.weight ≤ 7 := by
  cases p <;> simp [weight]

/-- What is on its way. -/
def load (ts : List (Token A)) (s : System Q M A C) : ℕ :=
  7 * s.toClient.length + ts.length + s.phase.weight

/-- The steps that `n` steps of the sequential dialogue allow. -/
def allowance (n : ℕ) (s : System Q M A C) : ℕ :=
  10 * n + match s.server with
    | .run _ => 3
    | .awaiting _ _ => 12

theorem allowance_le (n : ℕ) (s : System Q M A C) : allowance n s ≤ 10 * n + 12 := by
  unfold allowance
  cases s.server <;> simp

variable {act question reply W Ready q₀}

section Invariant

variable {n : ℕ} {ts : List (Token A)} {s t : System Q M A C} {q : Q} {k : A → Q} {g : Q}

theorem Good.running (h : Good act question reply W Ready q₀ n ts s) (hs : s.server = .run q) :
    Running act question reply Ready q₀ n ts q s := by
  have h2 := h.2
  rwa [hs] at h2

theorem Good.waiting (h : Good act question reply W Ready q₀ n ts s)
    (hs : s.server = .awaiting k g) : Waiting act question reply q₀ n ts k g s := by
  have h2 := h.2
  rwa [hs] at h2

theorem good_init : Good act question reply W Ready q₀ 0 [] (System.init W q₀) :=
  ⟨W.holds_empty, rfl, by simp, by simp [System.init], .inl rfl, fun _ => .inr (.inl rfl)⟩

/-- The client is there as long as the server goes on. -/
theorem Running.here (h : Running act question reply Ready q₀ n ts q s) (hq : act q ≠ .halt) :
    s.phase = .nudging ∨ s.phase = .listening := by
  rcases h.phase with hp | hp | ⟨-, -, hp⟩
  · exact .inl hp
  · exact .inr hp
  · exact absurd hp hq

/-- A token that is read in front of idle ones. -/
theorem read_cons {c c' : C} {r : Reading A} (hW : W.Holds c ts) (hts : ∀ t ∈ ts, t.Idle)
    (hr : W.read c = some (r, c')) : ∃ t us, ts = t :: us ∧ r = .other ∧ W.Holds c' us := by
  cases ts with
  | nil =>
    rw [W.read_nil hW] at hr
    cases hr
  | cons t us =>
    obtain ⟨c₁, hc₁, hus⟩ := W.read_idle (hts t List.mem_cons_self) hW
    rw [hc₁] at hr
    obtain ⟨rfl, rfl⟩ := Prod.mk.inj (Option.some.inj hr)
    exact ⟨t, us, rfl, rfl, hus⟩

/-- What the server reads while it waits: a token that says nothing, or the answer, once it is
complete. -/
theorem Exchange.read {a : A} {l : List M} {p : Phase A} (h : Exchange question a l p ts) {c c' : C}
    {r : Reading A} (hW : W.Holds c ts) (hr : W.read c = some (r, c')) :
    (r = .other ∧ ∃ t us, ts = t :: us ∧ W.Holds c' us ∧ Exchange question a l p us) ∨
    r = .answer a ∧ l = [] ∧ (p = .nudging ∨ p = .listening) ∧
      ∃ us, ts = .answer a :: .filler :: us ∧ (∀ t ∈ us, t.Idle) ∧ W.Holds c' (.filler :: us) := by
  have htail : ∀ {t : Token A} {us}, (∀ x ∈ t :: us, x.Idle) → ∀ x ∈ us, x.Idle :=
    fun hx x hm => hx x (List.mem_cons_of_mem _ hm)
  cases h with
  | unheard hms hm hts hp =>
    obtain ⟨t, us, rfl, rfl, hus⟩ := read_cons hW hts hr
    exact .inl ⟨rfl, t, us, rfl, hus, .unheard hms hm (htail hts) hp⟩
  | heard hts =>
    obtain ⟨t, us, rfl, rfl, hus⟩ := read_cons hW hts hr
    exact .inl ⟨rfl, t, us, rfl, hus, .heard (htail hts)⟩
  | @written us hts =>
    cases us with
    | nil =>
      rw [W.read_open hW] at hr
      cases hr
    | cons t us =>
      obtain ⟨c₁, hc₁, hus⟩ := W.read_idle (hts t List.mem_cons_self) hW
      rw [hc₁] at hr
      obtain ⟨rfl, rfl⟩ := Prod.mk.inj (Option.some.inj hr)
      exact .inl ⟨rfl, t, _, rfl, hus, .written (htail hts)⟩
  | @complete us _ vs hts hvs hp =>
    cases us with
    | nil =>
      obtain ⟨c₁, hc₁, hus⟩ := W.read_answer hW
      rw [hc₁] at hr
      obtain ⟨rfl, rfl⟩ := Prod.mk.inj (Option.some.inj hr)
      exact .inr ⟨rfl, rfl, hp, vs, rfl, hvs, hus⟩
    | cons t us =>
      obtain ⟨c₁, hc₁, hus⟩ := W.read_idle (hts t List.mem_cons_self) hW
      rw [hc₁] at hr
      obtain ⟨rfl, rfl⟩ := Prod.mk.inj (Option.some.inj hr)
      exact .inl ⟨rfl, t, _, rfl, hus, .complete (htail hts) hvs hp⟩

theorem idle_concat (hts : ∀ t ∈ ts, t.Idle) {t : Token A} (ht : t.Idle) :
    ∀ u ∈ ts ++ [t], u.Idle := by
  intro u hu
  rcases List.mem_append.mp hu with hu | hu
  · exact hts u hu
  · exact List.mem_singleton.mp hu ▸ ht

/-- The client nudges. -/
theorem Exchange.nudge {a : A} {l : List M} (h : Exchange question a l .nudging ts) :
    Exchange question a l .listening (ts ++ [.nudge]) := by
  cases h with
  | unheard hms hm hts hp => exact .unheard hms hm (idle_concat hts trivial) (.inr rfl)
  | @complete us _ vs hts hvs hp =>
    rw [List.append_assoc]
    exact .complete hts (idle_concat hvs trivial) (.inr rfl)

/-- The client hears a line, and the question is the last one. -/
theorem Exchange.hear {a : A} {m : M} {l : List M}
    (h : Exchange question a (m :: l) .listening ts) :
    (question m = true ∧ l = [] ∧ Exchange question a l (.answering a) ts) ∨
      (question m = false ∧ Exchange question a l .nudging ts) := by
  generalize hl : m :: l = l' at h
  cases h with
  | @unheard ms m' _ _ hms hm hts hp =>
    cases ms with
    | nil =>
      obtain ⟨rfl, rfl⟩ := List.cons.inj hl
      exact .inl ⟨hm, rfl, .heard hts⟩
    | cons x ms =>
      obtain ⟨rfl, rfl⟩ := List.cons.inj hl
      exact .inr ⟨hms m List.mem_cons_self,
        .unheard (fun x hx => hms x (List.mem_cons_of_mem _ hx)) hm hts (.inl rfl)⟩
  | complete => cases hl

/-- The client answers. -/
theorem Exchange.answer {a b : A} {l : List M} (h : Exchange question a l (.answering b) ts) :
    Exchange question a l .filling (ts ++ [.answer b]) := by
  cases h with
  | unheard hms hm hts hp => rcases hp with hp | hp <;> cases hp
  | heard hts => exact .written hts
  | complete hts hus hp => rcases hp with hp | hp <;> cases hp

/-- The client completes the answer. -/
theorem Exchange.fill {a : A} {l : List M} (h : Exchange question a l .filling ts) :
    Exchange question a l .nudging (ts ++ [.filler]) := by
  cases h with
  | unheard hms hm hts hp => rcases hp with hp | hp <;> cases hp
  | written hts =>
    rw [List.append_assoc]
    exact .complete hts (by simp) (.inl rfl)
  | complete hts hus hp => rcases hp with hp | hp <;> cases hp

variable (hP : Polite act question Ready)
include hP

/-- **One step of either party** keeps to the dialogue, and is allowed. -/
theorem Good.step (h : Good act question reply W Ready q₀ n ts s)
    (hst : Step act question reply W s t) :
    ∃ n' ts', Good act question reply W Ready q₀ n' ts' t ∧
      allowance n s + load ts' t + 1 ≤ allowance n' t + load ts s := by
  cases hst with
  | @work q q' hs ha =>
    have hr := h.running hs
    refine ⟨n + 1, ts, ⟨h.1, ?_, hr.idle, hr.plain, ?_, fun hq => hr.ready (hP.work ha hq)⟩, ?_⟩
    · exact direct_succ hr.direct (by simp [next, ha])
    · exact (hr.here (by simp [ha])).imp id .inl
    · simp only [allowance, load, hs]
      omega
  | @say q m q' hs ha =>
    have hr := h.running hs
    refine ⟨n + 1, ts, ⟨h.1, ?_, hr.idle, ?_, ?_, fun _ => .inr (.inr (.inl (by simp)))⟩, ?_⟩
    · exact direct_succ hr.direct (by simp [next, ha])
    · intro x hx
      rcases List.mem_append.mp hx with hx | hx
      · exact hr.plain x hx
      · exact List.mem_singleton.mp hx ▸ hP.say ha
    · exact (hr.here (by simp [ha])).imp id .inl
    · simp only [allowance, load, hs, List.length_append, List.length_singleton]
      omega
  | @ask q m k g hs ha =>
    have hr := h.running hs
    refine ⟨n, ts, ⟨h.1, ⟨_, q, m, hr.direct, ha, (List.append_assoc ..).symm⟩,
      .unheard hr.plain (hP.ask ha) hr.idle (hr.here (by simp [ha]))⟩, ?_⟩
    simp only [allowance, load, hs, List.length_append, List.length_singleton]
    omega
  | @poll q q' r c hs ha hread =>
    have hr := h.running hs
    obtain ⟨t, us, rfl, -, hus⟩ := read_cons h.1 hr.idle hread
    refine ⟨n + 1, us, ⟨hus, ?_, fun x hx => hr.idle x (List.mem_cons_of_mem _ hx), hr.plain, ?_,
      fun hq => absurd hq (hP.poll ha).2⟩, ?_⟩
    · exact direct_succ hr.direct (by simp [next, ha])
    · exact (hr.here (by simp [ha])).imp id .inl
    · simp only [allowance, load, hs, List.length_cons]
      omega
  | @skip k g c hs hread =>
    have hw := h.waiting hs
    rcases hw.exchange.read h.1 hread with ⟨-, t, us, rfl, hus, hx⟩ | ⟨hr, -⟩
    · refine ⟨n, us, ⟨hus, ?_⟩, ?_⟩
      · simp only [hs]
        exact ⟨hw.direct, hx⟩
      · simp only [allowance, load, hs, List.length_cons]
        omega
    · cases hr
  | @take k g a c hs hread =>
    have hw := h.waiting hs
    rcases hw.exchange.read h.1 hread with ⟨hr, -⟩ | ⟨hr, hl, hp, us, rfl, hus, hc⟩
    · cases hr
    · obtain ⟨said, q, m, hd, ha, heq⟩ := hw.direct
      obtain rfl := Reading.answer.inj hr
      refine ⟨n + 1, .filler :: us, ⟨hc, ?_, ?_, ?_, ?_, fun _ => .inl (by simp)⟩, ?_⟩
      · refine direct_succ hd ?_
        simp only [next, ha, heq]
      · intro x hx
        rcases List.mem_cons.mp hx with rfl | hx
        · trivial
        · exact hus x hx
      · simp [hl]
      · exact hp.imp id .inl
      · simp only [allowance, load, hs, List.length_cons]
        omega
  | @fail k g c hs hread =>
    have hw := h.waiting hs
    rcases hw.exchange.read h.1 hread with ⟨hr, -⟩ | ⟨hr, -⟩
    · cases hr
    · cases hr
  | nudge hp =>
    refine ⟨n, ts ++ [.nudge], ⟨W.holds_write _ h.1, ?_⟩, ?_⟩
    · cases hs : s.server with
      | run q =>
        have hr := h.running hs
        exact ⟨hr.direct, idle_concat hr.idle trivial, hr.plain, .inr (.inl rfl),
          fun _ => .inl (by simp)⟩
      | awaiting k g =>
        have hw := h.waiting hs
        exact ⟨hw.direct, (hp ▸ hw.exchange).nudge⟩
    · simp only [allowance, load, hp, Phase.weight, List.length_append, List.length_singleton]
      omega
  | @hear m ms hp hl =>
    have heq : s.heard ++ [m] ++ ms = s.heard ++ s.toClient := by rw [hl, List.append_assoc]; rfl
    refine ⟨n, ts, ⟨h.1, ?_⟩, ?_⟩
    · cases hs : s.server with
      | run q =>
        have hr := h.running hs
        have hm : question m = false := hr.plain m (hl ▸ List.mem_cons_self)
        refine ⟨?_, hr.idle, fun x hx => hr.plain x (hl ▸ List.mem_cons_of_mem _ hx), ?_, ?_⟩
        · exact (congrArg (fun l => some (l, q)) heq) ▸ hr.direct
        · simp [hm]
        · simp [hm]
      | awaiting k g =>
        have hw := h.waiting hs
        obtain ⟨said, q, m', hd, ha, hsaid⟩ := hw.direct
        have hx := hw.exchange
        rw [hp, ← heq, hl] at hx
        refine ⟨⟨said, q, m', hd, ha, heq.trans hsaid⟩, ?_⟩
        rcases hx.hear with ⟨hm, rfl, hx⟩ | ⟨hm, hx⟩
        · rw [List.append_nil] at hx
          simpa [hm] using hx
        · simpa [hm] using hx
    · have hnew := (if question m then .answering (reply (s.heard ++ [m])) else .nudging :
        Phase A).weight_le
      have hold : s.phase.weight = 1 := by rw [hp]; rfl
      simp only [allowance, load, hold, hl, List.length_cons]
      omega
  | @answer a hp =>
    refine ⟨n, ts ++ [.answer a], ⟨W.holds_write _ h.1, ?_⟩, ?_⟩
    · cases hs : s.server with
      | run q =>
        rcases (h.running hs).phase with hp' | hp' | ⟨hp', -⟩ <;> rw [hp] at hp' <;> cases hp'
      | awaiting k g =>
        have hw := h.waiting hs
        exact ⟨hw.direct, (hp ▸ hw.exchange).answer⟩
    · simp only [allowance, load, hp, Phase.weight, List.length_append, List.length_singleton]
      omega
  | fill hp =>
    refine ⟨n, ts ++ [.filler], ⟨W.holds_write _ h.1, ?_⟩, ?_⟩
    · cases hs : s.server with
      | run q =>
        rcases (h.running hs).phase with hp' | hp' | ⟨hp', -⟩ <;> rw [hp] at hp' <;> cases hp'
      | awaiting k g =>
        have hw := h.waiting hs
        exact ⟨hw.direct, (hp ▸ hw.exchange).fill⟩
    · simp only [allowance, load, hp, Phase.weight, List.length_append, List.length_singleton]
      omega
  | @close q hp hl hs ha =>
    have hr := h.running hs
    refine ⟨n, ts, ⟨h.1, ?_⟩, ?_⟩
    · simp only [hs]
      exact ⟨hr.direct, hr.idle, hr.plain, .inr (.inr ⟨rfl, hl, ha⟩),
        fun _ => .inr (.inr (.inr rfl))⟩
    · simp only [allowance, load, hp, Phase.weight]
      omega

omit hP in
/-- A word that the server polls is no answer. -/
theorem Good.polls (h : Good act question reply W Ready q₀ n ts s) (hs : s.server = .run q)
    {r : Reading A} {c : C} (hr : W.read s.toServer = some (r, c)) : r = .other := by
  obtain ⟨t, us, -, hother, -⟩ := read_cons h.1 (h.running hs).idle hr
  exact hother

omit hP in
/-- A word at which the server stops to wait is the answer to the last line, which the client has
read. -/
theorem Good.answers (h : Good act question reply W Ready q₀ n ts s)
    (hs : s.server = .awaiting k g) {r : Reading A} {c : C}
    (hr : W.read s.toServer = some (r, c)) :
    r = .other ∨ r = .answer (reply s.heard) ∧ s.toClient = [] := by
  rcases (h.waiting hs).exchange.read h.1 hr with ⟨hother, -⟩ | ⟨ha, hl, -⟩
  · exact .inl hother
  · rw [hl, List.append_nil] at ha
    exact .inr ⟨ha, hl⟩

/-- **Every run keeps to the dialogue**: after `k` steps the server is `n` steps into it, and `n`
grows with `k`. -/
theorem Steps.good {k : ℕ} (h : Steps act question reply W (System.init W q₀) k s) :
    ∃ n ts, Good act question reply W Ready q₀ n ts s ∧ k + load ts s ≤ allowance n s := by
  induction h with
  | refl => exact ⟨0, [], good_init, Nat.le_refl _⟩
  | tail _ ht ih =>
    obtain ⟨n, ts, hgood, hle⟩ := ih
    obtain ⟨n', ts', hgood', hle'⟩ := hgood.step hP ht
    exact ⟨n', ts', hgood', by omega⟩

/-- **Nobody waits forever**: either party can take a step until the server has halted and the
client has heard every line and gone. -/
theorem Good.progress (h : Good act question reply W Ready q₀ n ts s) :
    (∃ t, Step act question reply W s t) ∨
      s.phase = .gone ∧ ∃ q, s.server = .run q ∧ act q = .halt ∧
        direct act reply q₀ n = some (s.heard, q) := by
  cases hs : s.server with
  | run q =>
    have hr := h.running hs
    cases ha : act q with
    | work q' => exact .inl ⟨_, .work hs ha⟩
    | say m q' => exact .inl ⟨_, .say hs ha⟩
    | ask m k g => exact .inl ⟨_, .ask hs ha⟩
    | poll q' =>
      left
      have hhere := hr.here (by simp [ha])
      rcases hr.ready (hP.poll ha).1 with hts | hp | hl | hp
      · obtain ⟨t, us, rfl⟩ := List.exists_cons_of_ne_nil hts
        obtain ⟨c, hread, -⟩ := W.read_idle (hr.idle t List.mem_cons_self) h.1
        exact ⟨_, .poll hs ha hread⟩
      · exact ⟨_, .nudge hp⟩
      · obtain ⟨m, ms, hl⟩ := List.exists_cons_of_ne_nil hl
        rcases hhere with hp | hp
        · exact ⟨_, .nudge hp⟩
        · exact ⟨_, .hear hp hl⟩
      · rw [hp] at hhere
        rcases hhere with hp | hp <;> cases hp
    | halt =>
      rcases hr.phase with hp | hp | ⟨hp, hl, -⟩
      · exact .inl ⟨_, .nudge hp⟩
      · cases hl : s.toClient with
        | nil => exact .inl ⟨_, .close hp hl hs ha⟩
        | cons m ms => exact .inl ⟨_, .hear hp hl⟩
      · have hd := hr.direct
        rw [hl, List.append_nil] at hd
        exact .inr ⟨hp, q, rfl, ha, hd⟩
  | awaiting k g =>
    left
    have hx := (h.waiting hs).exchange
    generalize hl : s.toClient = l at hx
    generalize hp : s.phase = p at hx
    cases hx with
    | @unheard ms m _ _ hms hm hts hp' =>
      rcases hp' with rfl | rfl
      · exact ⟨_, .nudge hp⟩
      · obtain ⟨x, xs, hx⟩ := List.exists_cons_of_ne_nil (by simp : ms ++ [m] ≠ [])
        exact ⟨_, .hear hp (hl.trans hx)⟩
    | heard => exact ⟨_, .answer hp⟩
    | written => exact ⟨_, .fill hp⟩
    | @complete us _ vs hts hvs hp' =>
      cases us with
      | nil =>
        obtain ⟨c, hread, -⟩ := W.read_answer h.1
        exact ⟨_, .take hs hread⟩
      | cons t us =>
        obtain ⟨c, hread, -⟩ := W.read_idle (hts t List.mem_cons_self) h.1
        exact ⟨_, .skip hs hread⟩

end Invariant

/-! ## Runs that end -/

theorem direct_of_halt {N : ℕ} {x : List M × Q} (hx : direct act reply q₀ N = some x)
    (hh : act x.2 = .halt) {n : ℕ} (hn : N < n) : direct act reply q₀ n = none := by
  induction hn with
  | refl => rw [direct, hx, Option.bind_some, next, hh]
  | step _ ih => rw [direct, ih, Option.bind_none]

/-- **If the sequential dialogue ends, so does every run**: it takes no more than `10 * N + 12`
steps, and when no step is left the client has heard all of the dialogue. -/
theorem Steps.ends (hP : Polite act question Ready) {N : ℕ} {said : List M} {q : Q}
    (hN : direct act reply q₀ N = some (said, q)) (hh : act q = .halt) {k : ℕ}
    {s : System Q M A C} (h : Steps act question reply W (System.init W q₀) k s) :
    k ≤ 10 * N + 12 ∧ ((∀ t, ¬Step act question reply W s t) →
      s.server = .run q ∧ s.heard = said ∧ s.phase = .gone) := by
  obtain ⟨n, ts, hgood, hle⟩ := h.good hP
  have hn : n ≤ N := by
    by_contra hlt
    have hnone := direct_of_halt hN hh (Nat.lt_of_not_le hlt)
    cases hs : s.server with
    | run q' =>
      rw [(hgood.running hs).direct] at hnone
      cases hnone
    | awaiting k g =>
      obtain ⟨_, _, _, hd, -⟩ := (hgood.waiting hs).direct
      rw [hd] at hnone
      cases hnone
  constructor
  · have hallow := allowance_le n s
    omega
  · intro hstuck
    rcases hgood.progress hP with ⟨t, ht⟩ | ⟨hp, q', hs, ha, hd⟩
    · exact absurd ht (hstuck t)
    · have hnN : n = N := by
        by_contra hne
        have hnone := direct_of_halt hd ha (Nat.lt_of_le_of_ne hn hne)
        rw [hnone] at hN
        cases hN
      rw [hnN, hN] at hd
      obtain ⟨rfl, rfl⟩ := Prod.mk.inj (Option.some.inj hd)
      exact ⟨hs, rfl, hp⟩

end Dialogue
