import AdminPolicy.Event
import AdminPolicy.Host.Call

/-!
# Programs that call a host

A `Program` is a value: it is done, or it reports an event and goes on, or it makes a call and goes on with the
answer. `Program.run` lets a host answer and keeps everything that can be seen of the run: the result, the final
state, each call with the state that it left, and the events. A run of one program after another is the two runs one
after the other (`run_bind`).
-/

namespace AdminPolicy

/-- A computation that reports events and calls a host. -/
inductive Program (α : Type) where
  | done (result : α)
  | report (event : Event) (rest : Program α)
  | request (call : HostCall) (next : call.Answer → Program α)

/-- A call as it happened. -/
structure Step (σ : Type) where
  call : HostCall
  /-- The failure of the call, if it failed. -/
  failure? : Option IoError
  after : σ

/-- A run of a program. -/
structure Run (σ α : Type) where
  result : α
  final : σ
  steps : List (Step σ)
  events : List Event

namespace Program

variable {σ α β : Type}

/-- One program after another. -/
def bind : Program α → (α → Program β) → Program β
  | done a, k => k a
  | report e p, k => report e (p.bind k)
  | request c next, k => request c fun r => (next r).bind k

instance : Monad Program where
  pure := done
  bind := bind

/-- A call on its own. -/
def call (c : HostCall) : Program c.Answer := request c done

def emitAll : List Event → Program Unit
  | [] => done ()
  | e :: es => report e (emitAll es)

/-- The failure that an answer is. -/
def failure? {c : HostCall} : c.Answer → Option IoError
  | .ok _ => none
  | .error e => some e

/-- The run of a program on a host. -/
def run (host : Host σ) : Program α → σ → Run σ α
  | done a, s => ⟨a, s, [], []⟩
  | report e p, s => let r := run host p s; { r with events := e :: r.events }
  | request c next, s =>
    let (answer, s') := host c s
    let r := run host (next answer) s'
    { r with steps := ⟨c, failure? answer, s'⟩ :: r.steps }

/-- The run of one program after another. -/
theorem run_bind (host : Host σ) (p : Program α) (k : α → Program β) (s : σ) :
    (p.bind k).run host s =
      let r := p.run host s
      let r' := (k r.result).run host r.final
      ⟨r'.result, r'.final, r.steps ++ r'.steps, r.events ++ r'.events⟩ := by
  induction p generalizing s with
  | done a => rfl
  | report e p ih => simp [bind, run, ih]
  | request c next ih => simp [bind, run, ih]

end Program

end AdminPolicy
