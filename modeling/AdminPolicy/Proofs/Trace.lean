import AdminPolicy.Proofs.Run

/-!
# Traces

What a run called and what it was answered, in order (`Program.exchanges`). `Program.Traces R` says of a program that
every way of answering it leads to a trace and a result in `R`, so that whatever it says holds on every host
(`Traces.run`). It is a Hoare logic in which the state is what has happened so far: there is a rule for every way in
which programs are put together, and an action that gives up skips what follows (`Action.traces_bind`).
-/

namespace AdminPolicy

variable {σ α β : Type} {host : Host σ}

/-- A call and what it was answered. -/
structure Exchange where
  call : HostCall
  answer : call.Answer

namespace Program

/-- The calls of a run with their answers. -/
def exchanges (host : Host σ) : Program α → σ → List Exchange
  | done _, _ => []
  | report _ p, s => p.exchanges host s
  | request c next, s =>
    let (answer, s') := host c s
    ⟨c, answer⟩ :: (next answer).exchanges host s'

/-- The steps of a run are its exchanges. -/
theorem map_exchanges (p : Program α) (s : σ) :
    (p.exchanges host s).map (fun x => (x.call, failure? x.answer)) =
      (p.run host s).steps.map fun st => (st.call, st.failure?) := by
  induction p generalizing s with
  | done _ => rfl
  | report _ _ ih => exact ih s
  | request c next ih => simp [exchanges, run, ih]

/-- However the program is answered, the exchanges behind those that happened before, and the result, are in `R`. -/
def Traces (R : α → List Exchange → Prop) : Program α → List Exchange → Prop
  | done x, xs => R x xs
  | report _ p, xs => p.Traces R xs
  | request c next, xs => ∀ a, (next a).Traces R (xs ++ [⟨c, a⟩])

variable {R : α → List Exchange → Prop} {xs : List Exchange}

theorem traces_done {x : α} (h : R x xs) : (done x).Traces R xs := h

theorem traces_report {e : Event} {p : Program α} (h : p.Traces R xs) : (report e p).Traces R xs := h

theorem traces_request {c : HostCall} {next : c.Answer → Program α}
    (h : ∀ a, (next a).Traces R (xs ++ [⟨c, a⟩])) : (request c next).Traces R xs := h

theorem traces_emitAll {R : Unit → List Exchange → Prop} (h : R () xs) : ∀ es : List Event, (emitAll es).Traces R xs
  | [] => traces_done h
  | _ :: es => traces_report (traces_emitAll h es)

theorem Traces.bind {p : Program α} {k : α → Program β} {R' : β → List Exchange → Prop} (hp : p.Traces R xs)
    (hk : ∀ x ys, R x ys → (k x).Traces R' ys) : (p.bind k).Traces R' xs := by
  induction p generalizing xs with
  | done x => exact hk x xs hp
  | report _ _ ih => exact ih hp
  | request c next ih => exact fun a => ih a (hp a)

theorem Traces.mono {R' : α → List Exchange → Prop} {p : Program α} (hp : p.Traces R xs)
    (h : ∀ x ys, R x ys → R' x ys) : p.Traces R' xs := by
  induction p generalizing xs with
  | done x => exact h x xs hp
  | report _ _ ih => exact ih hp
  | request c next ih => exact fun a => ih a (hp a)

/-- **What holds of every trace holds of every run.** -/
theorem Traces.run {p : Program α} (hp : p.Traces R xs) (host : Host σ) (s : σ) :
    R (p.run host s).result (xs ++ p.exchanges host s) := by
  induction p generalizing xs s with
  | done x =>
    rw [exchanges, List.append_nil]
    exact hp
  | report _ _ ih => exact ih hp s
  | request c next ih => simpa [exchanges, Program.run] using ih _ (hp (host c s).1) (host c s).2

-- the rules speak for the definition, which would unfold whole programs
attribute [irreducible] Traces

end Program

namespace Action

variable {Q : α → List Exchange → Prop} {E : PolicyError → List Exchange → Prop} {xs : List Exchange}

/-- However the action is answered, it ends with a result and exchanges in `Q`, or gives up in `E`. -/
def Traces (a : Action α) (Q : α → List Exchange → Prop) (E : PolicyError → List Exchange → Prop)
    (xs : List Exchange) : Prop :=
  a.program.Traces (fun r ys => match r with
    | .ok x => Q x ys
    | .error e => E e ys) xs

theorem Traces.mono {Q' : α → List Exchange → Prop} {E' : PolicyError → List Exchange → Prop} {a : Action α}
    (h : a.Traces Q E xs) (hQ : ∀ x ys, Q x ys → Q' x ys) (hE : ∀ e ys, E e ys → E' e ys) : a.Traces Q' E' xs := by
  refine Program.Traces.mono h fun r ys hr => ?_
  cases r with
  | ok x => exact hQ x ys hr
  | error e => exact hE e ys hr

theorem traces_pure {x : α} (h : Q x xs) : (pure x : Action α).Traces Q E xs := Program.traces_done h

theorem traces_emit {Q : Unit → List Exchange → Prop} {e : Event} (h : Q () xs) : (emit e).Traces Q E xs :=
  Program.traces_report (Program.traces_done h)

theorem traces_fail {e : PolicyError} (h : E e xs) : (fail e : Action α).Traces Q E xs := Program.traces_done h

theorem traces_bind {a : Action α} {k : α → Action β} {Q' : β → List Exchange → Prop} (ha : a.Traces Q E xs)
    (hk : ∀ x ys, Q x ys → (k x).Traces Q' E ys) : (a >>= k).Traces Q' E xs := by
  unfold Traces
  rw [program_bind]
  refine Program.Traces.bind ha fun r ys hr => ?_
  cases r with
  | ok x => exact hk x ys hr
  | error e => exact Program.traces_done hr

/-- Events leave no trace. -/
theorem traces_emit_bind {e : Event} {k : Unit → Action α} (h : (k ()).Traces Q E xs) :
    (emit e >>= k).Traces Q E xs :=
  traces_bind (Q := fun _ ys => ys = xs) (traces_emit rfl) fun _ _ hys => hys ▸ h

theorem traces_ite {c : Prop} [Decidable c] {a b : Action α} (ha : c → a.Traces Q E xs) (hb : ¬ c → b.Traces Q E xs) :
    (if c then a else b).Traces Q E xs := by
  split
  · exact ha ‹_›
  · exact hb ‹_›

theorem traces_attempt {op : FileOperation} {path : HostPath} {c : HostCall} {Q : c.Reply → List Exchange → Prop}
    (hok : ∀ r, Q r (xs ++ [⟨c, .ok r⟩])) (herr : ∀ e, E (.io op path e) (xs ++ [⟨c, .error e⟩])) :
    (attempt op path c).Traces Q E xs := by
  refine Program.traces_request fun a => ?_
  cases a with
  | ok r => exact Program.traces_done (hok r)
  | error e => exact Program.traces_done (herr e)

end Action

end AdminPolicy
