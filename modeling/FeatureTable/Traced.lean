namespace FeatureTable

inductive Level where
  | error
  | warn
  | info
  | debug
deriving Repr, DecidableEq

structure Event where
  level : Level
  message : String
deriving Repr, DecidableEq

/-- A computation that records events on its way to a result or to an error. -/
structure Traced (ε α : Type) where
  outcome : Except ε α
  events : List Event := []

namespace Traced

def pure (a : α) : Traced ε α := ⟨.ok a, []⟩

def bind (x : Traced ε α) (f : α → Traced ε β) : Traced ε β :=
  match x.outcome with
  | .ok a => ⟨(f a).outcome, x.events ++ (f a).events⟩
  | .error e => ⟨.error e, x.events⟩

instance : Monad (Traced ε) where
  pure := pure
  bind := bind

def fail (e : ε) : Traced ε α := ⟨.error e, []⟩

def record (level : Level) (message : String) : Traced ε Unit := ⟨.ok (), [⟨level, message⟩]⟩

def ofExcept (x : Except ε α) : Traced ε α := ⟨x, []⟩

/-- Continues after an error; the events recorded before it stay. -/
def recover (x : Traced ε α) (f : ε → Traced δ α) : Traced δ α :=
  match x.outcome with
  | .ok a => ⟨.ok a, x.events⟩
  | .error e => ⟨(f e).outcome, x.events ++ (f e).events⟩

def mapError (f : ε → δ) (x : Traced ε α) : Traced δ α :=
  x.recover fun e => fail (f e)

@[simp] theorem outcome_pure (a : α) : (Pure.pure a : Traced ε α).outcome = .ok a := rfl

@[simp] theorem outcome_record (level : Level) (message : String) :
    (record level message : Traced ε Unit).outcome = .ok () := rfl

@[simp] theorem outcome_ofExcept (x : Except ε α) : (ofExcept x).outcome = x := rfl

@[simp] theorem outcome_bind (x : Traced ε α) (f : α → Traced ε β) :
    (x >>= f).outcome = x.outcome >>= fun a => (f a).outcome := by
  show (Traced.bind x f).outcome = _
  unfold Traced.bind
  cases x.outcome <;> rfl

@[simp] theorem outcome_map (f : α → β) (x : Traced ε α) :
    (f <$> x).outcome = f <$> x.outcome := by
  show (Traced.bind x (fun a => Pure.pure (f a))).outcome = _
  unfold Traced.bind
  cases x.outcome <;> rfl

@[simp] theorem outcome_recover (x : Traced ε α) (f : ε → Traced δ α) :
    (x.recover f).outcome =
      match x.outcome with
      | .ok a => .ok a
      | .error e => (f e).outcome := by
  unfold recover
  cases x.outcome <;> rfl

@[simp] theorem outcome_mapError (f : ε → δ) (x : Traced ε α) :
    (x.mapError f).outcome = x.outcome.mapError f := by
  unfold mapError
  rw [outcome_recover]
  cases x.outcome <;> rfl

@[ext] theorem ext {x y : Traced ε α} (houtcome : x.outcome = y.outcome)
    (hevents : x.events = y.events) : x = y := by
  cases x
  cases y
  simp_all

private theorem bind_pure_right (x : Traced ε α) : x.bind pure = x := by
  obtain ⟨outcome, events⟩ := x
  cases outcome <;> simp [bind, pure]

private theorem bind_assoc' (x : Traced ε α) (f : α → Traced ε β) (g : β → Traced ε γ) :
    (x.bind f).bind g = x.bind fun a => (f a).bind g := by
  obtain ⟨outcome, events⟩ := x
  cases outcome with
  | error e => simp [bind]
  | ok a =>
      rcases h : f a with ⟨outcome', events'⟩
      cases outcome' <;> simp [bind, h]

private theorem bind_pure_left (a : α) (f : α → Traced ε β) : Traced.bind (pure a) f = f a := by
  simp [bind, pure]

instance : LawfulMonad (Traced ε) :=
  LawfulMonad.mk' _ bind_pure_right bind_pure_left bind_assoc'

end Traced

end FeatureTable
