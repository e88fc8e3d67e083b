import Mathlib.Data.Option.Basic

/-!
# Computations with a trace

A computation that emits events and either has a value or stops before it has one, and the
reading of its trace by a monitor: a state that every event moves, with the events that are
allowed in each state. Events have no time and no cost, and nothing is emitted by two
computations at once.
-/

namespace IperfRuntime.EventTrace

universe u

variable {ε σ : Type*} {α β : Type u}

/-- The events of a computation, and its value unless it stopped. -/
structure Traced (ε : Type*) (α : Type u) where
  events : List ε
  value : Option α
  deriving DecidableEq

namespace Traced

/-- The second computation behind the first, unless that stopped. -/
def andThen (x : Traced ε α) (f : α → Traced ε β) : Traced ε β :=
  match x.value with
  | none => ⟨x.events, none⟩
  | some a => ⟨x.events ++ (f a).events, (f a).value⟩

instance : Monad (Traced ε) where
  pure a := ⟨[], some a⟩
  bind := andThen

/-- A computation that emits the given events. -/
def emits (events : List ε) : Traced ε PUnit := ⟨events, some ⟨⟩⟩

/-- A computation that goes no further. -/
def stop : Traced ε α := ⟨[], none⟩

/-- A value alone has no events. -/
@[simp] theorem events_pure (a : α) : (pure a : Traced ε α).events = [] := rfl

/-- It comes back with the value. -/
@[simp] theorem value_pure (a : α) : (pure a : Traced ε α).value = some a := rfl

/-- The events that are emitted are the events. -/
@[simp] theorem events_emits (events : List ε) : (emits events).events = events := rfl

/-- Emitting comes back. -/
@[simp] theorem value_emits (events : List ε) : (emits events).value = some ⟨⟩ := rfl

/-- Stopping has no events of its own. -/
@[simp] theorem events_stop : (stop : Traced ε α).events = [] := rfl

/-- It does not come back. -/
@[simp] theorem value_stop : (stop : Traced ε α).value = none := rfl

variable {x : Traced ε α} {f : α → Traced ε β} {a : α} {b : β}

/-- What does not come back has no events behind it. -/
theorem events_bind_of_none (h : x.value = none) : (x >>= f).events = x.events := by
  change (x.andThen f).events = x.events
  simp only [andThen, h]

/-- What comes back is followed by the events of the continuation at its value. -/
theorem events_bind_of_some (h : x.value = some a) :
    (x >>= f).events = x.events ++ (f a).events := by
  change (x.andThen f).events = _
  simp only [andThen, h]

/-- It is followed by the value of that continuation as well. -/
theorem value_bind_of_some (h : x.value = some a) : (x >>= f).value = (f a).value := by
  change (x.andThen f).value = _
  simp only [andThen, h]

/-- The value of a sequence is that of the second part at the value of the first, if there is one.
-/
theorem value_bind (x : Traced ε α) (f : α → Traced ε β) :
    (x >>= f).value = x.value.bind fun a => (f a).value := by
  cases h : x.value with
  | none =>
    change (x.andThen f).value = _
    simp only [andThen, h, Option.bind_none]
  | some a => rw [value_bind_of_some h, Option.bind_some]

/-- A sequence comes back with a value exactly if both parts come back on the way to it. -/
theorem value_bind_eq_some :
    (x >>= f).value = some b ↔ ∃ a, x.value = some a ∧ (f a).value = some b := by
  rw [value_bind, Option.bind_eq_some_iff]

/-- Events that are emitted first stand in front of those of the continuation. -/
@[simp] theorem emits_bind_events (events : List ε) (f : PUnit → Traced ε β) :
    (emits events >>= f).events = events ++ (f ⟨⟩).events := rfl

/-- They do not change its value. -/
@[simp] theorem emits_bind_value (events : List ε) (f : PUnit → Traced ε β) :
    (emits events >>= f).value = (f ⟨⟩).value := rfl

/-- What a sequence emits starts with what its first part emits. -/
theorem events_bind_prefix (x : Traced ε α) (f : α → Traced ε β) :
    ∃ more, (x >>= f).events = x.events ++ more := by
  cases hx : x.value with
  | none => exact ⟨[], by rw [events_bind_of_none hx, List.append_nil]⟩
  | some a => exact ⟨_, events_bind_of_some hx⟩

/-- An event of the first part is an event of the sequence, whether or not it goes on. -/
theorem mem_events_bind {e : ε} (h : e ∈ x.events) : e ∈ (x >>= f).events := by
  obtain ⟨more, hmore⟩ := events_bind_prefix x f
  rw [hmore]
  exact List.mem_append_left _ h

/-- What every value of a computation satisfies. -/
def Returns (x : Traced ε α) (P : α → Prop) : Prop := ∀ a, x.value = some a → P a

/-- A value with a property returns it. -/
theorem Returns.pure {P : α → Prop} (h : P a) : (Pure.pure a : Traced ε α).Returns P := by
  intro b hb
  cases hb
  exact h

/-- A sequence returns what its second part returns at every value that the first part may return.
-/
theorem Returns.bind {R : α → Prop} {P : β → Prop} (hx : x.Returns R)
    (hf : ∀ a, R a → (f a).Returns P) : (x >>= f).Returns P := by
  intro b hb
  obtain ⟨a, ha, hfa⟩ := value_bind_eq_some.mp hb
  exact hf a (hx a ha) b hfa

end Traced

/-- How events move a state, and which events each state allows. -/
structure Monitor (σ ε : Type*) where
  step : σ → ε → σ
  allows : σ → ε → Prop

namespace Monitor

variable (m : Monitor σ ε)

/-- The state behind a trace. -/
def run (s : σ) (events : List ε) : σ := events.foldl m.step s

/-- Every event of a trace is allowed in the state it finds. -/
def Allows : σ → List ε → Prop
  | _, [] => True
  | s, e :: rest => m.allows s e ∧ Allows (m.step s e) rest

instance decidableAllows [∀ s e, Decidable (m.allows s e)] :
    ∀ (s : σ) (events : List ε), Decidable (m.Allows s events)
  | _, [] => inferInstanceAs (Decidable True)
  | s, e :: rest =>
    have := decidableAllows (m.step s e) rest
    inferInstanceAs (Decidable (m.allows s e ∧ m.Allows (m.step s e) rest))

/-- No event leaves the state. -/
@[simp] theorem run_nil (s : σ) : m.run s [] = s := rfl

/-- A first event moves the state, and the rest starts from there. -/
@[simp] theorem run_cons (s : σ) (e : ε) (rest : List ε) :
    m.run s (e :: rest) = m.run (m.step s e) rest := rfl

/-- A run over two lists is the second run from where the first one ends. -/
theorem run_append (s : σ) (first second : List ε) :
    m.run s (first ++ second) = m.run (m.run s first) second := List.foldl_append

/-- Two lists are allowed together if the first is allowed and the second is from there on. -/
theorem allows_append (s : σ) (first second : List ε) :
    m.Allows s (first ++ second) ↔ m.Allows s first ∧ m.Allows (m.run s first) second := by
  induction first generalizing s with
  | nil => simp [Allows]
  | cons e rest ih =>
    rw [List.cons_append, Allows, Allows, ih, run_cons, and_assoc]

/-- A monitor of some of the events only. -/
def comap {ε' : Type*} (g : ε' → Option ε) : Monitor σ ε' where
  step s e := match g e with
    | some e => m.step s e
    | none => s
  allows s e := ∀ e' ∈ g e, m.allows s e'

/-- A monitor that is taken back along a partial inverse runs the images as it runs the events
themselves. -/
theorem comap_map {ε' : Type*} {g : ε' → Option ε} {f : ε → ε'} (h : ∀ e, g (f e) = some e) (s : σ)
    (events : List ε) :
    (m.comap g).run s (events.map f) = m.run s events ∧
      ((m.comap g).Allows s (events.map f) ↔ m.Allows s events) := by
  induction events generalizing s with
  | nil => exact ⟨rfl, Iff.rfl⟩
  | cons e rest ih =>
    have hstep : (m.comap g).step s (f e) = m.step s e := by
      dsimp only [comap]
      rw [h e]
    have hallows : (m.comap g).allows s (f e) ↔ m.allows s e := by
      dsimp only [comap]
      rw [h e]
      simp
    rw [List.map_cons, run_cons, run_cons, Allows, Allows, hstep, hallows]
    exact ⟨(ih _).1, and_congr_right fun _ => (ih _).2⟩

/-- What holds behind a computation whose trace is allowed. -/
def Triple (P : σ → Prop) (x : Traced ε α) (Q : α → σ → Prop) : Prop :=
  ∀ s, P s → m.Allows s x.events → ∀ a, x.value = some a → Q a (m.run s x.events)

variable {m} {P : σ → Prop} {x : Traced ε α} {f : α → Traced ε β} {Q R : α → σ → Prop}

/-- A value alone establishes what its states already satisfy. -/
theorem Triple.pure {a : α} (h : ∀ s, P s → Q a s) : m.Triple P (Pure.pure a) Q := by
  intro s hs _ b hb
  cases hb
  exact h s hs

/-- What does not come back establishes everything, as there is no value to speak of. -/
theorem Triple.stop : m.Triple P (.stop : Traced ε α) Q := by
  intro s _ _ a ha
  cases ha

/-- Events in front of the rest of a computation. -/
theorem Triple.emits {Q : β → σ → Prop} {events : List ε} {f : PUnit → Traced ε β} {R : σ → Prop}
    (hevents : ∀ s, P s → m.Allows s events → R (m.run s events)) (hf : m.Triple R (f ⟨⟩) Q) :
    m.Triple P (.emits events >>= f) Q := by
  intro s hs hallows b hb
  rw [Traced.emits_bind_events] at hallows ⊢
  rw [Traced.emits_bind_value] at hb
  obtain ⟨hfirst, hsecond⟩ := (m.allows_append _ _ _).mp hallows
  rw [m.run_append]
  exact hf _ (hevents s hs hfirst) hsecond b hb

/-- The postcondition may be weakened. -/
theorem Triple.weaken (h : m.Triple P x R) (hQ : ∀ a s, R a s → Q a s) : m.Triple P x Q := by
  intro s hs hallows a ha
  exact hQ a _ (h s hs hallows a ha)

/-- A sequence is proved by its parts with an assertion between them. -/
theorem Triple.bind {Q : β → σ → Prop} (hx : m.Triple P x R)
    (hf : ∀ a, m.Triple (R a) (f a) Q) : m.Triple P (x >>= f) Q := by
  intro s hs hallows b hb
  obtain ⟨a, ha, hfa⟩ := Traced.value_bind_eq_some.mp hb
  rw [Traced.events_bind_of_some ha] at hallows ⊢
  obtain ⟨hfirst, hsecond⟩ := (m.allows_append _ _ _).mp hallows
  rw [m.run_append]
  exact hf a _ (hx s hs hfirst a ha) hsecond b hfa

end Monitor

end IperfRuntime.EventTrace
