import Mathlib.Data.List.Basic

/-!
# Turns in rounds

A round gives everybody a turn. A turn moves a state on, or ends its round, or ends everything. A
stop condition is looked at behind every turn that moves the state, except in the last round, and
ends the round only; a round without a move is the last one. What a turn sees is the state before
it.
-/

namespace IperfRuntime.TurnRounds

variable {σ δ : Type*}

/-- What a turn comes to. -/
inductive Outcome (δ : Type*) where
  | moved (amount : δ)
  | skipped
  | failed
  deriving DecidableEq

/-- A round with the states that its turns saw. -/
structure Played (σ : Type*) where
  state : σ
  active : Bool
  failed : Bool
  seen : List σ

/-- One more turn in front. -/
def Played.after (s : σ) (p : Played σ) : Played σ := { p with seen := s :: p.seen }

/-- A round. -/
def playRound (advance : σ → δ → σ) (stop : σ → Bool) (last : Bool) :
    Bool → σ → List (Outcome δ) → Played σ
  | active, s, [] => ⟨s, active, false, []⟩
  | active, s, .skipped :: _ => ⟨s, active, false, [s]⟩
  | active, s, .failed :: _ => ⟨s, active, true, [s]⟩
  | _, s, .moved d :: rest =>
    if !last && stop (advance s d) then ⟨advance s d, true, false, [s]⟩
    else (playRound advance stop last true (advance s d) rest).after s

/-- What the turns saw, with what those of further rounds would see. -/
def Played.followedBy (p : Played σ) (more : List σ) : List σ :=
  p.seen ++ if p.failed || !p.active then [] else more

/-- Round after round: the states that the turns saw. -/
def seen (advance : σ → δ → σ) (stop : σ → Bool) : σ → List (List (Outcome δ)) → List σ
  | _, [] => []
  | s, turns :: rounds =>
    (playRound advance stop rounds.isEmpty false s turns).followedBy
      (seen advance stop (playRound advance stop rounds.isEmpty false s turns).state rounds)

/-- No turn is taken with the limit reached. -/
def Within (limit : σ → Bool) (states : List σ) : Prop := ∀ s ∈ states, limit s = false

/-- Somebody has a turn in every round or in none. -/
def Uniform (rounds : List (List (Outcome δ))) : Prop :=
  ∀ turns ∈ rounds, ∀ others ∈ rounds, turns ≠ [] → others ≠ []

section Limit

variable {advance : σ → δ → σ} {stop limit : σ → Bool}

/-- The first turn sees the state that the round starts from. -/
theorem playRound_head (advance : σ → δ → σ) (stop : σ → Bool) (last active : Bool) (s : σ)
    {turns : List (Outcome δ)} (h : turns ≠ []) :
    s ∈ (playRound advance stop last active s turns).seen := by
  cases turns with
  | nil => exact absurd rfl h
  | cons first rest =>
    cases first with
    | moved d =>
      unfold playRound
      split
      · exact List.mem_singleton_self s
      · exact List.mem_cons_self
    | skipped => exact List.mem_singleton_self s
    | failed => exact List.mem_singleton_self s

/-- In the last round nothing is looked at. -/
theorem playRound_last (advance : σ → δ → σ) (stop stop' : σ → Bool) (active : Bool) (s : σ)
    (turns : List (Outcome δ)) :
    playRound advance stop true active s turns = playRound advance stop' true active s turns := by
  induction turns generalizing active s with
  | nil => rfl
  | cons first rest ih =>
    cases first with
    | moved d =>
      rw [playRound, playRound, Bool.not_true, Bool.false_and, Bool.false_and, ih]
    | skipped => rfl
    | failed => rfl

/-- The limit was reached at the end of a round that nothing else ended. -/
structure Reached (limit : σ → Bool) (p : Played σ) : Prop where
  active : p.active = true
  going : p.failed = false
  state : limit p.state = true

/-- A limit in the stop condition changes a round only by ending it where the limit is
reached; up to there the rounds are the same. -/
theorem playRound_limit (active : Bool) (s : σ) (turns : List (Outcome δ))
    (hs : limit s = false) :
    (playRound advance (fun s => stop s || limit s) false active s turns =
        playRound advance stop false active s turns ∧
      limit (playRound advance stop false active s turns).state = false) ∨
    (turns ≠ [] ∧
      Reached limit (playRound advance (fun s => stop s || limit s) false active s turns) ∧
      (Within limit (playRound advance stop false active s turns).seen →
        Reached limit (playRound advance stop false active s turns))) := by
  induction turns generalizing active s with
  | nil => exact Or.inl ⟨rfl, hs⟩
  | cons first rest ih =>
    cases first with
    | skipped => exact Or.inl ⟨rfl, hs⟩
    | failed => exact Or.inl ⟨rfl, hs⟩
    | moved d =>
      rw [playRound, playRound, Bool.not_false, Bool.true_and, Bool.true_and]
      cases hlimit : limit (advance s d) with
      | true =>
        right
        rw [Bool.or_true, if_pos rfl]
        refine ⟨by simp, ⟨rfl, rfl, hlimit⟩, ?_⟩
        split
        · exact fun _ => ⟨rfl, rfl, hlimit⟩
        · intro hwithin
          cases rest with
          | nil => exact ⟨rfl, rfl, hlimit⟩
          | cons next rest =>
            have hseen := hwithin (advance s d)
              (List.mem_cons_of_mem _ (playRound_head advance stop false true _ (by simp)))
            rw [hlimit] at hseen
            cases hseen
      | false =>
        rw [Bool.or_false]
        cases stop (advance s d) with
        | true => exact Or.inl ⟨rfl, hlimit⟩
        | false =>
          rw [if_neg (by decide), if_neg (by decide)]
          rcases ih true (advance s d) hlimit with ⟨hsame, hstate⟩ | ⟨-, hreached, hwithin⟩
          · exact Or.inl ⟨by rw [hsame], hstate⟩
          · right
            refine ⟨by simp, ⟨hreached.active, hreached.going, hreached.state⟩, ?_⟩
            intro hall
            have hrest := hwithin fun s' hs' => hall s' (List.mem_cons_of_mem _ hs')
            exact ⟨hrest.active, hrest.going, hrest.state⟩

/-- Two parts are within the limit together exactly if each of them is. -/
theorem within_append {a b : List σ} :
    Within limit (a ++ b) ↔ Within limit a ∧ Within limit b := by
  constructor
  · intro h
    exact ⟨fun s hs => h s (List.mem_append_left b hs),
      fun s hs => h s (List.mem_append_right a hs)⟩
  · rintro ⟨ha, hb⟩ s hs
    rcases List.mem_append.mp hs with hleft | hright
    · exact ha s hleft
    · exact hb s hright

/-- Another round behind a limit that is reached. -/
theorem not_within_reached {p : Played σ} (hp : Reached limit p) (stop : σ → Bool)
    {turns : List (Outcome δ)} (rounds : List (List (Outcome δ))) (h : turns ≠ []) :
    ¬ Within limit (p.followedBy (seen advance stop p.state (turns :: rounds))) := by
  intro hwithin
  unfold Played.followedBy at hwithin
  rw [hp.going, hp.active, within_append] at hwithin
  have hhead := playRound_head advance stop rounds.isEmpty false p.state h
  have hfirst := hwithin.2 p.state (List.mem_append_left _ hhead)
  rw [hp.state] at hfirst
  cases hfirst

/-- A limit in the stop condition keeps the turns within it exactly when they stay within it
without. -/
theorem within_limit_iff (s : σ) {rounds : List (List (Outcome δ))} (hs : limit s = false)
    (huniform : Uniform rounds) :
    Within limit (seen advance (fun s => stop s || limit s) s rounds) ↔
      Within limit (seen advance stop s rounds) := by
  induction rounds generalizing s with
  | nil => rfl
  | cons turns rounds ih =>
    have hrest : Uniform rounds := fun a ha b hb =>
      huniform a (List.mem_cons_of_mem _ ha) b (List.mem_cons_of_mem _ hb)
    cases rounds with
    | nil =>
      unfold seen
      rw [List.isEmpty_nil, playRound_last advance _ stop]
      rfl
    | cons next rounds =>
      rw [seen, seen.eq_def advance stop]
      dsimp only [List.isEmpty_cons]
      rcases @playRound_limit _ _ advance stop limit false s turns hs with
        ⟨hsame, hstate⟩ | ⟨hturns, hreached, hwithin⟩
      · have hmore := ih _ hstate hrest
        rw [hsame]
        unfold Played.followedBy
        rw [within_append, within_append]
        split
        · rfl
        · rw [hmore]
      · have hnext : next ≠ [] := huniform turns (by simp) next (by simp) hturns
        constructor
        · intro h
          exact absurd h (not_within_reached hreached _ rounds hnext)
        · intro h
          have hplain := hwithin (within_append.mp h).1
          exact absurd h (not_within_reached hplain _ rounds hnext)

end Limit

end IperfRuntime.TurnRounds
