import Mathlib.Data.List.Basic
import Mathlib.Logic.Function.Basic

/-!
# Two parties with one script

Two parties that exchange the messages of one script over first-in first-out channels, a
party running ahead of the other wherever the script does not make it wait. What is in
flight is what the party ahead has sent, so a party that reads the amount its script says
reads the message its script says, and one of the two can always go on.
-/

namespace IperfRuntime.ScriptedChannels

/-- The two parties. -/
inductive Party where
  | initiator
  | responder
  deriving DecidableEq

/-- The other one. -/
def Party.other : Party → Party
  | .initiator => .responder
  | .responder => .initiator

/-- The other party of the other one is oneself. -/
@[simp] theorem Party.other_other (p : Party) : p.other.other = p := by
  cases p with
  | initiator => rfl
  | responder => rfl

/-- It is not oneself. -/
@[simp] theorem Party.other_ne (p : Party) : p.other ≠ p := by
  cases p with
  | initiator => simp [Party.other]
  | responder => simp [Party.other]

variable {κ α : Type*} [DecidableEq κ]

/-- A message of a script. -/
structure Message (κ α : Type*) where
  sender : Party
  channel : κ
  content : List α

/-- What each party has sent on each channel and the other has not read. -/
abbrev Channels (κ α : Type*) := Party → κ → List α

/-- A write. -/
def Channels.write (ch : Channels κ α) (p : Party) (c : κ) (content : List α) : Channels κ α :=
  fun q d => if q = p ∧ d = c then ch q d ++ content else ch q d

/-- A read of so much of what a party has sent. -/
def Channels.consume (ch : Channels κ α) (p : Party) (c : κ) (n : ℕ) : Channels κ α :=
  fun q d => if q = p ∧ d = c then (ch q d).drop n else ch q d

/-- The contents of messages on a channel. -/
def inFlight (c : κ) (sent : List (Message κ α)) : List α :=
  (sent.filter fun m => decide (m.channel = c)).flatMap Message.content

/-- What is left of the script for each party, and the channels between them: one party
is ahead, and has sent all that the other has still to read. -/
def Coherent (ch : Channels κ α) (rest : Party → List (Message κ α)) : Prop :=
  ∃ p sent, rest p.other = sent ++ rest p ∧ (∀ m ∈ sent, m.sender = p) ∧
    (∀ c, ch p c = inFlight c sent) ∧ ∀ c, ch p.other c = []

/-- What is in flight of two lists of messages is in flight of each, in order. -/
theorem inFlight_append (c : κ) (first second : List (Message κ α)) :
    inFlight c (first ++ second) = inFlight c first ++ inFlight c second := by
  simp [inFlight]

/-- The first message is in flight on its own channel only. -/
theorem inFlight_cons (c : κ) (m : Message κ α) (sent : List (Message κ α)) :
    inFlight c (m :: sent) = (if m.channel = c then m.content else []) ++ inFlight c sent := by
  unfold inFlight
  by_cases h : m.channel = c
  · simp [h]
  · simp [h]

/-- Nothing is in flight on a channel that no message uses. -/
theorem inFlight_none {c : κ} {sent : List (Message κ α)} (h : ∀ m ∈ sent, m.channel ≠ c) :
    inFlight c sent = [] := by
  unfold inFlight
  have hnone : sent.filter (fun m => decide (m.channel = c)) = [] := by
    rw [List.filter_eq_nil_iff]
    intro m hm
    simpa using h m hm
  rw [hnone, List.flatMap_nil]

/-- Before the first message everything is coherent. -/
theorem coherent_start (script : List (Message κ α)) :
    Coherent (fun _ _ => []) (fun _ => script) :=
  ⟨.initiator, [], rfl, by simp, fun _ => rfl, fun _ => rfl⟩

/-- Where a party's own message is next, it is the one ahead, or both are level and it takes
the lead. -/
theorem Coherent.own_next {ch : Channels κ α} {rest : Party → List (Message κ α)}
    (h : Coherent ch rest) {p : Party} {m : Message κ α} {after : List (Message κ α)}
    (hrest : rest p = m :: after) (hm : m.sender = p) :
    ∃ sent, rest p.other = sent ++ rest p ∧ (∀ m ∈ sent, m.sender = p) ∧
      (∀ c, ch p c = inFlight c sent) ∧ ∀ c, ch p.other c = [] := by
  obtain ⟨q, sent, hahead, hsent, hflight, hquiet⟩ := h
  by_cases hq : q = p
  · subst hq
    exact ⟨sent, hahead, hsent, hflight, hquiet⟩
  · have hother : p = q.other := by
      cases p <;> cases q <;> simp_all [Party.other]
    cases sent with
    | nil =>
      refine ⟨[], ?_, by simp, ?_, ?_⟩
      · rw [List.nil_append, hother, Party.other_other, hahead, List.nil_append]
      · intro c
        rw [hother, hquiet c]
        rfl
      · intro c
        rw [hother, Party.other_other, hflight c]
        rfl
    | cons first sent =>
      rw [← hother, hrest, List.cons_append] at hahead
      have hfirst : m = first := (List.cons.inj hahead).1
      have hsender := hsent first List.mem_cons_self
      rw [← hfirst, hm] at hsender
      exact absurd hsender.symm hq

/-- A party that writes the message its script says. -/
theorem Coherent.write {ch : Channels κ α} {rest : Party → List (Message κ α)}
    (h : Coherent ch rest) {p : Party} {m : Message κ α} {after : List (Message κ α)}
    (hrest : rest p = m :: after) (hm : m.sender = p) :
    Coherent (ch.write p m.channel m.content) (Function.update rest p after) := by
  obtain ⟨sent, hahead, hsent, hflight, hquiet⟩ := h.own_next hrest hm
  refine ⟨p, sent ++ [m], ?_, ?_, ?_, ?_⟩
  · rw [Function.update_of_ne (Party.other_ne p), Function.update_self, hahead, hrest,
      List.append_assoc, List.singleton_append]
  · intro m' hm'
    rcases List.mem_append.mp hm' with hold | hnew
    · exact hsent m' hold
    · rw [List.mem_singleton.mp hnew]
      exact hm
  · intro c
    rw [inFlight_append, inFlight_cons]
    unfold Channels.write
    by_cases hc : c = m.channel
    · subst hc
      simp [hflight, inFlight]
    · simp [hflight, hc, Ne.symm hc, inFlight]
  · intro c
    unfold Channels.write
    rw [if_neg fun hp => Party.other_ne p hp.1]
    exact hquiet c

/-- Where the other's message is next, it is in flight or nothing on its channel is. -/
theorem Coherent.front {ch : Channels κ α} {rest : Party → List (Message κ α)}
    (h : Coherent ch rest) {p : Party} {m : Message κ α} {after : List (Message κ α)}
    (hrest : rest p = m :: after) (hsome : ch p.other m.channel ≠ []) :
    ∃ sent, rest p = (m :: sent) ++ rest p.other ∧ (∀ x ∈ m :: sent, x.sender = p.other) ∧
      (∀ c, ch p.other c = inFlight c (m :: sent)) ∧ ∀ c, ch p c = [] := by
  obtain ⟨q, sent, hahead, hsent, hflight, hquiet⟩ := h
  by_cases hq : q = p
  · subst hq
    exact absurd (hquiet m.channel) hsome
  · have hother : q = p.other := by
      cases p <;> cases q <;> simp_all [Party.other]
    subst hother
    rw [Party.other_other] at hahead hquiet
    cases sent with
    | nil =>
      rw [hflight] at hsome
      exact absurd rfl hsome
    | cons first sent =>
      rw [hrest, List.cons_append] at hahead
      obtain ⟨hfirst, hafter⟩ := List.cons.inj hahead
      subst hfirst
      exact ⟨sent, by rw [hrest, hafter, List.cons_append], hsent, hflight, hquiet⟩

/-- What a party finds is the message its script says. -/
theorem Coherent.found {ch : Channels κ α} {rest : Party → List (Message κ α)}
    (h : Coherent ch rest) {p : Party} {m : Message κ α} {after : List (Message κ α)}
    (hrest : rest p = m :: after) (hsome : ch p.other m.channel ≠ []) :
    m.sender = p.other ∧ ∃ more, ch p.other m.channel = m.content ++ more := by
  obtain ⟨sent, -, hsent, hflight, -⟩ := h.front hrest hsome
  refine ⟨hsent m List.mem_cons_self, inFlight m.channel sent, ?_⟩
  rw [hflight, inFlight_cons, if_pos rfl]

/-- A party that reads the message its script says. -/
theorem Coherent.consume {ch : Channels κ α} {rest : Party → List (Message κ α)}
    (h : Coherent ch rest) {p : Party} {m : Message κ α} {after : List (Message κ α)}
    (hrest : rest p = m :: after) (hsome : ch p.other m.channel ≠ []) :
    Coherent (ch.consume p.other m.channel m.content.length) (Function.update rest p after) := by
  obtain ⟨sent, hahead, hsent, hflight, hquiet⟩ := h.front hrest hsome
  have hne : p ≠ p.other := fun heq => Party.other_ne p heq.symm
  refine ⟨p.other, sent, ?_, ?_, ?_, ?_⟩
  · rw [Party.other_other, Function.update_self, Function.update_of_ne (Party.other_ne p)]
    rw [hrest, List.cons_append] at hahead
    exact (List.cons.inj hahead).2
  · intro x hx
    exact hsent x (List.mem_cons_of_mem m hx)
  · intro c
    unfold Channels.consume
    by_cases hc : c = m.channel
    · subst hc
      rw [if_pos ⟨rfl, rfl⟩, hflight, inFlight_cons, if_pos rfl, List.drop_left]
    · rw [if_neg fun hp => hc hp.2, hflight, inFlight_cons, if_neg (Ne.symm hc), List.nil_append]
  · intro c
    rw [Party.other_other]
    unfold Channels.consume
    rw [if_neg fun hp => hne hp.1]
    exact hquiet c

/-- Nothing is in flight on a channel that no message before a party's own one uses, so a
party that writes there finds it empty. -/
theorem Coherent.silent {ch : Channels κ α} {rest : Party → List (Message κ α)}
    (h : Coherent ch rest) {p : Party} {before after : List (Message κ α)} {c : κ}
    (hrest : rest p = before ++ after) (hbefore : ∀ m ∈ before, m.channel ≠ c)
    (hafter : ∀ m ∈ after.head?, m.sender = p) : ch p.other c = [] := by
  obtain ⟨q, sent, hahead, hsent, hflight, hquiet⟩ := h
  by_cases hq : q = p
  · subst hq
    exact hquiet c
  · have hother : q = p.other := by
      cases p <;> cases q <;> simp_all [Party.other]
    subst hother
    rw [Party.other_other, hrest] at hahead
    rw [hflight]
    refine inFlight_none fun m hm => ?_
    by_cases hlong : sent.length ≤ before.length
    · have htake : sent = before.take sent.length := by
        have hleft := congrArg (List.take sent.length) hahead
        rw [List.take_left, List.take_append_of_le_length hlong] at hleft
        exact hleft.symm
      rw [htake] at hm
      exact hbefore m (List.mem_of_mem_take hm)
    · cases after with
      | nil =>
        have hlength := congrArg List.length hahead
        simp only [List.append_nil, List.length_append] at hlength
        omega
      | cons first after =>
        have hfirst : sent[before.length]? = some first := by
          have hleft := congrArg (fun list => list[before.length]?) hahead
          rw [List.getElem?_append_right (Nat.le_refl _), Nat.sub_self,
            List.getElem?_append_left (by omega)] at hleft
          exact hleft.symm
        have hown := hafter first (by simp)
        have hother := hsent first (List.mem_of_getElem? hfirst)
        rw [hown] at hother
        exact absurd hother.symm (Party.other_ne p)

/-- One of the two parties can go on: the one ahead with a message of its own, or the one
behind with what has been sent for it. -/
theorem Coherent.progress {ch : Channels κ α} {rest : Party → List (Message κ α)}
    (h : Coherent ch rest) (hleft : ∃ p, rest p ≠ []) :
    ∃ p m after, rest p = m :: after ∧
      (m.sender = p ∨ ∃ more, ch p.other m.channel = m.content ++ more) := by
  obtain ⟨q, sent, hahead, hsent, hflight, hquiet⟩ := h
  cases sent with
  | cons first sent =>
    refine ⟨q.other, first, sent ++ rest q, hahead, Or.inr ⟨inFlight first.channel sent, ?_⟩⟩
    rw [Party.other_other, hflight, inFlight_cons, if_pos rfl]
  | nil =>
    rw [List.nil_append] at hahead
    have hne : rest q ≠ [] := by
      obtain ⟨p, hp⟩ := hleft
      by_cases hpq : p = q
      · rw [← hpq]
        exact hp
      · have hother : p = q.other := by
          cases p <;> cases q <;> simp_all [Party.other]
        rw [← hahead, ← hother]
        exact hp
    obtain ⟨m, after, hrest⟩ := List.exists_cons_of_ne_nil hne
    by_cases hm : m.sender = q
    · exact ⟨q, m, after, hrest, Or.inl hm⟩
    · have hother : m.sender = q.other := by
        cases hs : m.sender <;> cases q <;> simp_all [Party.other]
      exact ⟨q.other, m, after, by rw [hahead, hrest], Or.inl hother⟩

end IperfRuntime.ScriptedChannels
