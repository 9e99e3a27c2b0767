import AdminPolicy.Action

/-!
# Reasoning about runs

Hosts whose states show each other run programs alike (`Program.run_map`). Beyond that, three views of a program, each
with a rule for every way in which programs are put together.

* `Program.Only P`: every call that the program can make, whatever it is answered, is in `P`. A property of states
  that the calls in `P` keep is kept by the whole run, at every point of it (`Only.run_keeps`).
* `Program.Ensures host I Q s`: a run from `s` leaves states in `I` on its way and ends with a result and a state in
  `Q`. Sequencing composes (`ensures_bind`); an action that gives up skips what follows (`Action.ensures_bind`).
* `Program.Ends P`: every result that the program can end with, whatever it is answered, is in `P`. So the result of
  each run is (`Ends.result`), and what a run ensures besides can be said apart (`Ensures.and_ends`).
-/

namespace AdminPolicy

variable {σ α β : Type} {host : Host σ}

/-- Whether a result is the one that is asked for. -/
instance decidableEqOk {ε : Type} [DecidableEq α] (x : α) : (r : Except ε α) → Decidable (r = .ok x)
  | .ok y => decidable_of_iff (y = x) (by simp)
  | .error _ => isFalse (by simp)

/-- Whether a result is the error that is asked for. -/
instance decidableEqError {ε : Type} [DecidableEq ε] (e : ε) : (r : Except ε α) → Decidable (r = .error e)
  | .error e' => decidable_of_iff (e' = e) (by simp)
  | .ok _ => isFalse (by simp)

/-! ## Sequencing actions -/

namespace Action

/-- An action after another: the second runs only if the first did not give up. -/
theorem program_bind (a : Action α) (k : α → Action β) :
    (a >>= k).program = a.program.bind fun
      | .ok x => (k x).program
      | .error e => .done (.error e) := by
  show Program.bind a.program (ExceptT.bindCont k) = _
  congr 1
  funext r
  cases r <;> rfl

@[simp] theorem program_of (p : Program (Except PolicyError α)) : (of p).program = p := rfl

end Action

/-! ## Runs of actions -/

namespace Action

variable {s : σ} {e : PolicyError}

theorem result_bind_of_ok {a : Action α} {x : α} (h : (a.program.run host s).result = .ok x) (k : α → Action β) :
    ((a >>= k).program.run host s).result = ((k x).program.run host (a.program.run host s).final).result := by
  rw [program_bind, Program.run_bind]
  simp only [h]

theorem result_bind_of_error {a : Action α} (h : (a.program.run host s).result = .error e) (k : α → Action β) :
    ((a >>= k).program.run host s).result = .error e := by
  rw [program_bind, Program.run_bind]
  simp only [h]
  rfl

theorem steps_bind_of_ok {a : Action α} {x : α} (h : (a.program.run host s).result = .ok x) (k : α → Action β) :
    ((a >>= k).program.run host s).steps =
      (a.program.run host s).steps ++ ((k x).program.run host (a.program.run host s).final).steps := by
  rw [program_bind, Program.run_bind]
  simp only [h]

/-- A call of two actions is one of the first, or one of the second where the first succeeded. -/
theorem mem_steps_bind {a : Action α} {k : α → Action β} {st : Step σ}
    (h : st ∈ ((a >>= k).program.run host s).steps) :
    st ∈ (a.program.run host s).steps ∨ ∃ x, (a.program.run host s).result = .ok x ∧
      st ∈ ((k x).program.run host (a.program.run host s).final).steps := by
  rw [program_bind, Program.run_bind] at h
  rcases List.mem_append.mp h with h | h
  · exact Or.inl h
  · cases hr : (a.program.run host s).result with
    | ok x => exact Or.inr ⟨x, rfl, by simpa only [hr] using h⟩
    | error _ => exact absurd h (by simp [hr, Program.run])

theorem result_attempt_of_ok {op : FileOperation} {path : HostPath} {c : HostCall} {r : c.Reply}
    (h : (host c s).1 = .ok r) : ((attempt op path c).program.run host s).result = .ok r := by
  simp [attempt, Program.run, h]

theorem result_attempt_of_error {op : FileOperation} {path : HostPath} {c : HostCall} {e : IoError}
    (h : (host c s).1 = .error e) : ((attempt op path c).program.run host s).result = .error (.io op path e) := by
  simp [attempt, Program.run, h]

/-- What an attempt returns is what it was answered. -/
theorem answer_of_result_attempt {op : FileOperation} {path : HostPath} {c : HostCall} {r : c.Reply}
    (h : ((attempt op path c).program.run host s).result = .ok r) : (host c s).1 = .ok r := by
  cases hc : (host c s).1 with
  | ok r' =>
    rw [result_attempt_of_ok hc] at h
    exact congrArg Except.ok (Except.ok.inj h)
  | error e =>
    rw [result_attempt_of_error hc] at h
    cases h

theorem call_of_mem_attempt {op : FileOperation} {path : HostPath} {c : HostCall} {st : Step σ}
    (h : st ∈ ((attempt op path c).program.run host s).steps) : st.call = c := by
  simp only [attempt, program_of, Program.run] at h
  rcases List.mem_cons.mp h with rfl | h
  · rfl
  · split at h <;> exact absurd h List.not_mem_nil

theorem final_attempt {op : FileOperation} {path : HostPath} {c : HostCall} :
    ((attempt op path c).program.run host s).final = (host c s).2 := by
  simp only [attempt, program_of, Program.run]
  rcases host c s with ⟨a, s'⟩
  cases a <;> rfl

end Action

/-! ## Hosts that show each other -/

/-- A step, its state seen through `f`. -/
def Step.map {τ : Type} (f : σ → τ) (st : Step σ) : Step τ := ⟨st.call, st.failure?, f st.after⟩

/-- A run, its states seen through `f`. -/
def Run.map {τ : Type} (f : σ → τ) (r : Run σ α) : Run τ α := ⟨r.result, f r.final, r.steps.map (Step.map f), r.events⟩

/-- A host that does on the shown states what another does on its own runs every program as that one does. -/
theorem Program.run_map {τ : Type} {host' : Host τ} (f : σ → τ)
    (h : ∀ c s, host' c (f s) = ((host c s).1, f (host c s).2)) (p : Program α) (s : σ) :
    p.run host' (f s) = (p.run host s).map f := by
  induction p generalizing s with
  | done a => rfl
  | report e p ih => simp [run, ih, Run.map]
  | request c next ih => simp [run, h, ih, Run.map, Step.map]

/-! ## The calls that a program can make -/

namespace Program

/-- Every call that the program can make is in `P`. -/
def Only (P : HostCall → Prop) : Program α → Prop
  | done _ => True
  | report _ p => p.Only P
  | request c next => P c ∧ ∀ a, (next a).Only P

variable {P P' : HostCall → Prop}

theorem only_done (x : α) : (done x).Only P := trivial

theorem only_report {e : Event} {p : Program α} (h : p.Only P) : (report e p).Only P := h

theorem only_request {c : HostCall} {next : c.Answer → Program α} (hc : P c) (h : ∀ a, (next a).Only P) :
    (request c next).Only P := ⟨hc, h⟩

theorem Only.mono {p : Program α} (hp : p.Only P) (h : ∀ c, P c → P' c) : p.Only P' := by
  induction p with
  | done _ => trivial
  | report _ _ ih => exact ih hp
  | request c next ih => exact ⟨h c hp.1, fun a => ih a (hp.2 a)⟩

theorem Only.bind {p : Program α} {k : α → Program β} (hp : p.Only P) (hk : ∀ x, (k x).Only P) :
    (p.bind k).Only P := by
  induction p with
  | done x => exact hk x
  | report _ _ ih => exact ih hp
  | request c next ih => exact ⟨hp.1, fun a => ih a (hp.2 a)⟩

theorem only_emitAll : ∀ es : List Event, (emitAll es).Only P
  | [] => trivial
  | _ :: es => only_emitAll es

theorem Only.mem_steps {p : Program α} (hp : p.Only P) (s : σ) : ∀ st ∈ (p.run host s).steps, P st.call := by
  induction p generalizing s with
  | done _ => exact fun _ hst => absurd hst List.not_mem_nil
  | report _ _ ih => exact ih hp s
  | request c next ih =>
    intro st hst
    rcases List.mem_cons.mp hst with rfl | hst
    · exact hp.1
    · exact ih _ (hp.2 _) _ st hst

/-- **What every call of a program keeps, its run keeps**, at every point. -/
theorem Only.run_keeps {p : Program α} (hp : p.Only P) {I : σ → Prop} (hI : ∀ c s, P c → I s → I (host c s).2)
    {s : σ} (hs : I s) : (∀ st ∈ (p.run host s).steps, I st.after) ∧ I (p.run host s).final := by
  induction p generalizing s with
  | done _ => exact ⟨fun _ hst => absurd hst List.not_mem_nil, hs⟩
  | report _ _ ih => exact ih hp hs
  | request c next ih =>
    have hc := hI c s hp.1 hs
    obtain ⟨hsteps, hfinal⟩ := ih (host c s).1 (hp.2 _) hc
    refine ⟨fun st hst => ?_, hfinal⟩
    rcases List.mem_cons.mp hst with rfl | hst
    · exact hc
    · exact hsteps st hst

/-- The final state of a run is kept, too. -/
theorem Only.final_keeps {p : Program α} (hp : p.Only P) {I : σ → Prop} (hI : ∀ c s, P c → I s → I (host c s).2)
    {s : σ} (hs : I s) : I (p.run host s).final := (hp.run_keeps hI hs).2

-- from here on the rules speak for the definition, which would unfold whole programs
attribute [irreducible] Only

end Program

namespace Action

open Program

variable {P : HostCall → Prop}

theorem only_pure (x : α) : (pure x : Action α).program.Only P := only_done _

theorem only_emit (e : Event) : (emit e).program.Only P := only_report (only_done _)

theorem only_bind {a : Action α} {k : α → Action β} (ha : a.program.Only P) (hk : ∀ x, (k x).program.Only P) :
    (a >>= k).program.Only P := by
  rw [program_bind]
  refine ha.bind fun r => ?_
  cases r with
  | ok x => exact hk x
  | error _ => exact only_done _

theorem only_ite {c : Prop} [Decidable c] {a b : Action α} (ha : a.program.Only P) (hb : b.program.Only P) :
    (if c then a else b).program.Only P := by
  split
  · exact ha
  · exact hb

theorem only_attempt {op : FileOperation} {path : HostPath} {c : HostCall} (hc : P c) :
    (attempt op path c).program.Only P := by
  refine only_request hc fun a => ?_
  cases a <;> exact only_done _

end Action

/-! ## The results that a program can come to -/

namespace Program

/-- Every result that the program can come to, whatever it is answered, is in `P`. -/
def Ends (P : α → Prop) : Program α → Prop
  | done x => P x
  | report _ p => p.Ends P
  | request _ next => ∀ a, (next a).Ends P

variable {P P' : α → Prop}

theorem ends_done {x : α} (h : P x) : (done x).Ends P := h

theorem ends_report {e : Event} {p : Program α} (h : p.Ends P) : (report e p).Ends P := h

theorem ends_request {c : HostCall} {next : c.Answer → Program α} (h : ∀ a, (next a).Ends P) :
    (request c next).Ends P := h

theorem Ends.bind {p : Program α} {k : α → Program β} {Q : β → Prop} (hp : p.Ends P)
    (hk : ∀ x, P x → (k x).Ends Q) : (p.bind k).Ends Q := by
  induction p with
  | done x => exact hk x hp
  | report _ _ ih => exact ih hp
  | request c next ih => exact fun a => ih a (hp a)

/-- A run comes to one of the results that the program can come to. -/
theorem Ends.result {p : Program α} (hp : p.Ends P) (host : Host σ) (s : σ) : P (p.run host s).result := by
  induction p generalizing s with
  | done _ => exact hp
  | report _ _ ih => exact ih hp s
  | request c next ih => exact ih _ (hp _) _

attribute [irreducible] Ends

end Program

namespace Action

/-- Every run of an action, whatever it is answered, ends with a result in `Q` or gives up with an error in `E`. -/
def Ends (a : Action α) (Q : α → Prop) (E : PolicyError → Prop) : Prop :=
  a.program.Ends fun r => match r with
    | .ok x => Q x
    | .error e => E e

variable {Q : α → Prop} {E : PolicyError → Prop}

theorem ends_pure {x : α} (h : Q x) : (pure x : Action α).Ends Q E := Program.ends_done h

theorem ends_fail {e : PolicyError} (h : E e) : (fail e : Action α).Ends Q E := Program.ends_done h

theorem ends_emit {Q : Unit → Prop} {e : Event} (h : Q ()) : (emit e).Ends Q E :=
  Program.ends_report (Program.ends_done h)

theorem ends_bind {a : Action α} {k : α → Action β} {R : α → Prop} {Q : β → Prop} (ha : a.Ends R E)
    (hk : ∀ x, R x → (k x).Ends Q E) : (a >>= k).Ends Q E := by
  unfold Ends
  rw [program_bind]
  refine Program.Ends.bind ha fun r hr => ?_
  cases r with
  | ok x => exact hk x hr
  | error e => exact Program.ends_done hr

theorem ends_ite {c : Prop} [Decidable c] {a b : Action α} (ha : c → a.Ends Q E) (hb : ¬ c → b.Ends Q E) :
    (if c then a else b).Ends Q E := by
  split
  · exact ha ‹_›
  · exact hb ‹_›

theorem ends_attempt {op : FileOperation} {path : HostPath} {c : HostCall} {Q : c.Reply → Prop} (hok : ∀ r, Q r)
    (herr : ∀ e, E (.io op path e)) : (attempt op path c).Ends Q E := by
  refine Program.ends_request fun a => ?_
  cases a with
  | ok r => exact Program.ends_done (hok r)
  | error e => exact Program.ends_done (herr e)

theorem Ends.of_ok {a : Action α} (h : a.Ends Q E) {s : σ} {x : α} (hr : (a.program.run host s).result = .ok x) :
    Q x := by
  have hend := Program.Ends.result h host s
  rw [hr] at hend
  exact hend

theorem Ends.of_error {a : Action α} (h : a.Ends Q E) {s : σ} {e : PolicyError}
    (hr : (a.program.run host s).result = .error e) : E e := by
  have hend := Program.Ends.result h host s
  rw [hr] at hend
  exact hend

end Action

/-! ## What a run ensures -/

/-- The states that a run goes through: the one before it, those between its calls, and the one after it. -/
def Run.states (s : σ) (r : Run σ α) : List σ := s :: r.steps.map Step.after ++ [r.final]

theorem Run.states_map {τ : Type} (f : σ → τ) (r : Run σ α) (s : σ) :
    (r.map f).states (f s) = (r.states s).map f := by
  simp [states, Run.map, Step.map]

namespace Program

variable {I : σ → Prop} {s : σ}

/-- A run from `s` leaves states in `I` on its way and ends with a result and a state in `Q`. -/
def Ensures (host : Host σ) (I : σ → Prop) (p : Program α) (Q : α → σ → Prop) (s : σ) : Prop :=
  (∀ st ∈ (p.run host s).steps, I st.after) ∧ Q (p.run host s).result (p.run host s).final

theorem ensures_done {x : α} {Q : α → σ → Prop} (h : Q x s) : Ensures host I (done x) Q s :=
  ⟨fun _ hst => absurd hst List.not_mem_nil, h⟩

theorem ensures_report {e : Event} {p : Program α} {Q : α → σ → Prop} (h : Ensures host I p Q s) :
    Ensures host I (report e p) Q s := h

theorem ensures_emitAll {Q : Unit → σ → Prop} (h : Q () s) : ∀ es : List Event, Ensures host I (emitAll es) Q s
  | [] => ensures_done h
  | _ :: es => ensures_report (ensures_emitAll h es)

theorem ensures_request {c : HostCall} {next : c.Answer → Program α} {Q : α → σ → Prop} (hI : I (host c s).2)
    (h : Ensures host I (next (host c s).1) Q (host c s).2) : Ensures host I (request c next) Q s := by
  refine ⟨fun st hst => ?_, h.2⟩
  rcases List.mem_cons.mp hst with rfl | hst
  · exact hI
  · exact h.1 st hst

theorem ensures_bind {p : Program α} {k : α → Program β} {R : α → σ → Prop} {Q : β → σ → Prop}
    (hp : Ensures host I p R s) (hk : ∀ x s', R x s' → Ensures host I (k x) Q s') :
    Ensures host I (p.bind k) Q s := by
  have hk := hk _ _ hp.2
  unfold Ensures
  rw [run_bind]
  refine ⟨fun st hst => ?_, hk.2⟩
  rcases List.mem_append.mp hst with hst | hst
  · exact hp.1 st hst
  · exact hk.1 st hst

end Program

namespace Action

variable {I : σ → Prop} {s : σ} {E : PolicyError → σ → Prop}

/-- A run of an action leaves states in `I` on its way; it ends with a result in `Q`, or gives up in `E`. -/
def Ensures (host : Host σ) (I : σ → Prop) (a : Action α) (Q : α → σ → Prop) (E : PolicyError → σ → Prop) (s : σ) :
    Prop :=
  Program.Ensures host I a.program (fun r s' => match r with
    | .ok x => Q x s'
    | .error e => E e s') s

theorem Ensures.mono {I' : σ → Prop} {Q Q' : α → σ → Prop} {E' : PolicyError → σ → Prop} {a : Action α}
    (h : Ensures host I a Q E s) (hI : ∀ s', I s' → I' s') (hQ : ∀ x s', Q x s' → Q' x s')
    (hE : ∀ e s', E e s' → E' e s') : Ensures host I' a Q' E' s := by
  refine ⟨fun st hst => hI _ (h.1 st hst), ?_⟩
  have h₂ := h.2
  cases hr : (a.program.run host s).result with
  | ok x => rw [hr] at h₂; exact hQ x _ h₂
  | error e => rw [hr] at h₂; exact hE e _ h₂

/-- An action that ends in `I`, however it ends, is in `I` at every point. -/
theorem Ensures.mem_states {Q : α → σ → Prop} {a : Action α} (h : Ensures host I a Q E s) (hs : I s)
    (hQ : ∀ x s', Q x s' → I s') (hE : ∀ e s', E e s' → I s') :
    ∀ s' ∈ (a.program.run host s).states s, I s' := by
  obtain ⟨hsteps, hend⟩ := h
  intro s' hs'
  rcases List.mem_cons.mp hs' with rfl | hs'
  · exact hs
  rcases List.mem_append.mp hs' with hs' | hs'
  · obtain ⟨st, hst, rfl⟩ := List.mem_map.mp hs'
    exact hsteps st hst
  · rw [List.mem_singleton.mp hs']
    cases hr : (a.program.run host s).result with
    | ok x => rw [hr] at hend; exact hQ x _ hend
    | error e => rw [hr] at hend; exact hE e _ hend

/-- What holds where an action succeeds. -/
theorem Ensures.of_ok {Q : α → σ → Prop} {a : Action α} (h : Ensures host I a Q E s) {x : α}
    (hr : (a.program.run host s).result = .ok x) : Q x (a.program.run host s).final := by
  have hend := h.2
  rw [hr] at hend
  exact hend

/-- What holds where an action gives up. -/
theorem Ensures.of_error {Q : α → σ → Prop} {a : Action α} (h : Ensures host I a Q E s) {e : PolicyError}
    (hr : (a.program.run host s).result = .error e) : E e (a.program.run host s).final := by
  have hend := h.2
  rw [hr] at hend
  exact hend

/-- What a run ensures, and what every run of the action comes to. -/
theorem Ensures.and_ends {Q : α → σ → Prop} {Q' : α → Prop} {E' : PolicyError → Prop} {a : Action α}
    (h : Ensures host I a Q E s) (h' : a.Ends Q' E') :
    Ensures host I a (fun x s' => Q x s' ∧ Q' x) (fun e s' => E e s' ∧ E' e) s := by
  refine ⟨h.1, ?_⟩
  cases hr : (a.program.run host s).result with
  | ok x => exact ⟨h.of_ok hr, h'.of_ok hr⟩
  | error e => exact ⟨h.of_error hr, h'.of_error hr⟩

/-- If the action succeeds, it ends with a result in `Q`. -/
abbrev Achieves (host : Host σ) (a : Action α) (Q : α → σ → Prop) (s : σ) : Prop :=
  Ensures host (fun _ => True) a Q (fun _ _ => True) s

theorem ensures_pure {x : α} {Q : α → σ → Prop} (h : Q x s) : Ensures host I (pure x) Q E s :=
  Program.ensures_done h

/-- A run ends as it ends: the strongest postcondition, for an action whose calls keep `I`. -/
theorem ensures_of_only {P : HostCall → Prop} {a : Action α} (ha : a.program.Only P)
    (hI : ∀ c s, P c → I s → I (host c s).2) (hs : I s) :
    Ensures host I a (fun x s' => (a.program.run host s).result = .ok x ∧ I s')
      (fun e s' => (a.program.run host s).result = .error e ∧ I s') s := by
  obtain ⟨hsteps, hfinal⟩ := ha.run_keeps hI hs
  refine ⟨hsteps, ?_⟩
  cases hr : (a.program.run host s).result with
  | ok x => exact ⟨rfl, hfinal⟩
  | error e => exact ⟨rfl, hfinal⟩

theorem ensures_emit {e : Event} {Q : Unit → σ → Prop} (h : Q () s) : Ensures host I (emit e) Q E s :=
  Program.ensures_report (Program.ensures_done h)

theorem ensures_bind {a : Action α} {k : α → Action β} {R : α → σ → Prop} {Q : β → σ → Prop}
    (ha : Ensures host I a R E s) (hk : ∀ x s', R x s' → Ensures host I (k x) Q E s') :
    Ensures host I (a >>= k) Q E s := by
  unfold Ensures
  rw [program_bind]
  refine Program.ensures_bind ha fun r s' hr => ?_
  cases r with
  | ok x => exact hk x s' hr
  | error e => exact Program.ensures_done hr

theorem ensures_ite {c : Prop} [Decidable c] {a b : Action α} {Q : α → σ → Prop}
    (ha : c → Ensures host I a Q E s) (hb : ¬ c → Ensures host I b Q E s) :
    Ensures host I (if c then a else b) Q E s := by
  split
  · exact ha ‹_›
  · exact hb ‹_›

/-- A single call: what follows from its success, and what from its failure. -/
theorem ensures_attempt {op : FileOperation} {path : HostPath} {c : HostCall} {Q : c.Reply → σ → Prop}
    (hok : ∀ r, (host c s).1 = .ok r → I (host c s).2 ∧ Q r (host c s).2)
    (herr : ∀ e, (host c s).1 = .error e → I (host c s).2 ∧ E (.io op path e) (host c s).2) :
    Ensures host I (attempt op path c) Q E s := by
  unfold Ensures attempt
  rw [program_of]
  cases h : (host c s).1 with
  | ok r => exact Program.ensures_request (hok r h).1 (by rw [h]; exact Program.ensures_done (hok r h).2)
  | error e => exact Program.ensures_request (herr e h).1 (by rw [h]; exact Program.ensures_done (herr e h).2)

end Action

end AdminPolicy
