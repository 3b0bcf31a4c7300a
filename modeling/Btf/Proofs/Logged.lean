import Btf.Log
import Btf.Proofs.Outcome

/-!
# Outcomes of logged computations

A computation that only adds its own events to the log does the same from any log, so that the
outcome of two such computations does not depend on what the first one has logged.

* `Logged.Appends`: a computation adds its events to the log and does not look at it, with a rule for
  each way to build one;
* `Logged.outcome_mapError`, **`Logged.outcome_bind`**: outcomes without the log;
* `Logged.mapError_bind`: the failures of two computations are seen as those of each of them.
-/

namespace Btf.Logged

variable {ε ε' α β : Type} {m : Logged ε α} {f : α → Logged ε β}

/-- The computation adds its events to the log and does not look at it. -/
def Appends (m : Logged ε α) : Prop := ∀ log, m.run log = (m.outcome, log ++ m.result.2)

theorem appends_of_run (r : Except ε α) (events : List Event)
    (h : ∀ log, m.run log = (r, log ++ events)) : Appends m := by
  have hresult : m.result = (r, events) := h []
  intro log
  rw [h log, outcome, hresult]

theorem appends_pure (a : α) : Appends (pure a : Logged ε α) :=
  appends_of_run (.ok a) [] fun log => by rw [List.append_nil]; rfl

theorem appends_throw (e : ε) : Appends (throw e : Logged ε α) :=
  appends_of_run (.error e) [] fun log => by rw [List.append_nil]; rfl

theorem appends_lift (r : Except ε α) : Appends (lift r) :=
  appends_of_run r [] fun log => by rw [List.append_nil]; rfl

theorem appends_note (e : Event) : Appends (note e : Logged ε Unit) := fun _ => rfl

/-- **The outcome of two computations** does not depend on what the first one has logged. -/
theorem outcome_bind (m : Logged ε α) (hf : ∀ a, Appends (f a)) :
    (m >>= f).outcome = m.outcome >>= fun a => (f a).outcome := by
  rw [outcome, result, run_bind, outcome, result]
  rcases m.run [] with ⟨e | a, log⟩
  · rfl
  · have hrun := congrArg Prod.fst (hf a log)
    exact hrun

theorem outcome_lift_bind (r : Except ε α) (f : α → Logged ε β) :
    (lift r >>= f).outcome = r >>= fun a => (f a).outcome := by
  cases r <;> rfl

theorem Appends.bind (hm : Appends m) (hf : ∀ a, Appends (f a)) : Appends (m >>= f) := by
  have hrun : ∀ log, (m >>= f).run log = match m.outcome with
      | .ok a => ((f a).outcome, log ++ m.result.2 ++ (f a).result.2)
      | .error e => (.error e, log ++ m.result.2) := by
    intro log
    rw [run_bind, hm log]
    cases m.outcome with
    | ok a => exact hf a _
    | error e => rfl
  cases h : m.outcome with
  | ok a =>
    refine appends_of_run (f a).outcome (m.result.2 ++ (f a).result.2) fun log => ?_
    rw [hrun, h, ← List.append_assoc]
  | error e =>
    refine appends_of_run (.error e) m.result.2 fun log => ?_
    rw [hrun, h]

theorem run_mapError (g : ε → ε') (m : Logged ε α) (log : List Event) :
    (m.mapError g).run log = ((m.run log).1.mapError g, (m.run log).2) := by
  show (m.mapError g) log = _
  unfold mapError
  rcases m.run log with ⟨_ | _, _⟩ <;> rfl

theorem outcome_mapError (g : ε → ε') (m : Logged ε α) :
    (m.mapError g).outcome = m.outcome.mapError g :=
  congrArg Prod.fst (run_mapError g m [])

/-! ## How failures are seen -/

theorem ext {m m' : Logged ε α} (h : ∀ log, m.run log = m'.run log) : m = m' := funext h

theorem mapError_pure (g : ε → ε') (a : α) : (pure a : Logged ε α).mapError g = pure a := rfl

theorem mapError_note (g : ε → ε') (e : Event) : (note e : Logged ε Unit).mapError g = note e := rfl

theorem mapError_lift (g : ε → ε') (r : Except ε α) : (lift r).mapError g = lift (r.mapError g) := by
  cases r <;> rfl

theorem lift_ok (a : α) : (lift (.ok a) : Logged ε α) = pure a := rfl

theorem mapError_mapError {ε'' : Type} (g' : ε' → ε'') (g : ε → ε') (m : Logged ε α) :
    (m.mapError g).mapError g' = m.mapError fun e => g' (g e) := by
  refine ext fun log => ?_
  rw [run_mapError, run_mapError, run_mapError]
  cases (m.run log).1 <;> rfl

/-- The failures of two computations are seen as those of each of them. -/
theorem mapError_bind (g : ε → ε') (m : Logged ε α) (f : α → Logged ε β) :
    (m >>= f).mapError g = m.mapError g >>= fun a => (f a).mapError g := by
  refine ext fun log => ?_
  rw [run_mapError, run_bind, run_bind, run_mapError]
  rcases m.run log with ⟨e | a, log'⟩
  · rfl
  · exact (run_mapError g (f a) log').symm

theorem Appends.mapError (hm : Appends m) (g : ε → ε') : Appends (m.mapError g) :=
  appends_of_run (m.outcome.mapError g) m.result.2 fun log => by
    rw [run_mapError, hm log]

end Btf.Logged
