import IperfRuntime.TextPattern
import Mathlib.Data.List.TakeWhile

/-!
# The language of a pattern

The texts that a pattern stands for, and what the backtracking matcher has to do with them:
it finds a match exactly where there is one, and the first one it finds is the greedy one
wherever every part succeeds greedily. Lookahead, back references and reluctant repetition
do not exist in it.
-/

namespace IperfRuntime.TextPattern

/-- A text is one that the pattern stands for. -/
def Pattern.Accepts : Pattern → List Char → Prop
  | .chars member least most, text =>
    (∀ c ∈ text, member c = true) ∧ least ≤ text.length ∧ ∀ n ∈ most, text.length ≤ n
  | .literal word, text => text = word
  | .seq first second, text => ∃ a b, text = a ++ b ∧ first.Accepts a ∧ second.Accepts b
  | .optional part, text => part.Accepts text ∨ text = []
  | .group part, text => part.Accepts text

/-- The lengths tried are those from the least to the greatest. -/
theorem mem_lengthsDown {least n k : ℕ} : k ∈ lengthsDown least n ↔ least ≤ k ∧ k ≤ n := by
  induction n with
  | zero =>
    by_cases h : least = 0
    · simp only [lengthsDown, if_pos h, List.mem_singleton]
      omega
    · simp only [lengthsDown, if_neg h, List.not_mem_nil, false_iff]
      omega
  | succ n ih =>
    by_cases h : least ≤ n + 1
    · simp only [lengthsDown, if_pos h, List.mem_cons, ih]
      omega
    · simp only [lengthsDown, if_neg h, List.not_mem_nil, false_iff]
      omega

/-- A greedy run is no longer than the characters of its class. -/
theorem greedyLength_le (member : Char → Bool) (most : Option ℕ) (text : List Char) :
    greedyLength member most text ≤ (text.takeWhile member).length := by
  cases most with
  | none => exact Nat.le_refl _
  | some most => exact Nat.min_le_right _ _

/-- It is at least as long as any run that is allowed. -/
theorem length_le_greedyLength {member : Char → Bool} {most : Option ℕ} {seg rest : List Char}
    (hseg : ∀ c ∈ seg, member c = true) (hmost : ∀ n ∈ most, seg.length ≤ n) :
    seg.length ≤ greedyLength member most (seg ++ rest) := by
  have hwhile : seg.length ≤ ((seg ++ rest).takeWhile member).length := by
    rw [List.takeWhile_append_of_pos hseg, List.length_append]
    exact Nat.le_add_right _ _
  cases most with
  | none => exact hwhile
  | some most => exact Nat.le_min.mpr ⟨hmost most rfl, hwhile⟩

/-- What the matcher takes is a text of the pattern, by induction on the pattern; a repetition
takes no more than its class allows. -/
theorem Pattern.run_sound {p : Pattern} {text : List Char} {r : ℕ × Captures}
    (h : r ∈ p.run text) : r.1 ≤ text.length ∧ p.Accepts (text.take r.1) := by
  induction p generalizing text r with
  | chars member least most =>
    obtain ⟨n, hn, rfl⟩ := List.mem_map.mp h
    obtain ⟨hleast, hgreedy⟩ := mem_lengthsDown.mp hn
    have hwhile := Nat.le_trans hgreedy (greedyLength_le member most text)
    have htaken : (text.takeWhile member).length ≤ text.length :=
      (List.takeWhile_prefix member).length_le
    have hlength : (text.take n).length = n := by
      rw [List.length_take]
      omega
    refine ⟨Nat.le_trans hwhile htaken, ?_, ?_, ?_⟩
    · intro c hc
      have hlead : text.take n = (text.takeWhile member).take n := by
        conv_lhs => rw [← List.takeWhile_append_dropWhile (p := member) (l := text)]
        rw [List.take_append_of_le_length hwhile]
      rw [hlead] at hc
      exact List.mem_takeWhile_imp (List.mem_of_mem_take hc)
    · rw [hlength]
      exact hleast
    · intro most' hmost
      rw [hlength]
      cases hmost
      exact Nat.le_trans hgreedy (Nat.min_le_left _ _)
  | literal word =>
    unfold Pattern.run at h
    split at h
    · rename_i hword
      obtain ⟨more, rfl⟩ := List.isPrefixOf_iff_prefix.mp hword
      rw [List.mem_singleton.mp h]
      exact ⟨by simp, List.take_left⟩
    · cases h
  | seq first second ihfirst ihsecond =>
    obtain ⟨a, ha, hr⟩ := List.mem_flatMap.mp h
    obtain ⟨b, hb, rfl⟩ := List.mem_map.mp hr
    obtain ⟨hla, hfirst⟩ := ihfirst ha
    obtain ⟨hlb, hsecond⟩ := ihsecond hb
    rw [List.length_drop] at hlb
    refine ⟨by dsimp only; omega, text.take a.1, (text.drop a.1).take b.1, ?_, hfirst, hsecond⟩
    exact List.take_add
  | optional part ih =>
    rcases List.mem_append.mp h with hpart | hnone
    · obtain ⟨hlength, haccepts⟩ := ih hpart
      exact ⟨hlength, Or.inl haccepts⟩
    · rw [List.mem_singleton.mp hnone]
      exact ⟨Nat.zero_le _, Or.inr rfl⟩
  | group part ih =>
    obtain ⟨a, ha, rfl⟩ := List.mem_map.mp h
    obtain ⟨hlength, haccepts⟩ := ih ha
    exact ⟨hlength, haccepts⟩

/-- The matcher tries every text of the pattern, in whatever order, so no match is lost to
greediness. -/
theorem Pattern.run_complete {p : Pattern} {seg : List Char} (h : p.Accepts seg)
    (rest : List Char) : ∃ captures, (seg.length, captures) ∈ p.run (seg ++ rest) := by
  induction p generalizing seg rest with
  | chars member least most =>
    obtain ⟨hmember, hleast, hmost⟩ := h
    refine ⟨[], List.mem_map.mpr ⟨seg.length, ?_, rfl⟩⟩
    exact mem_lengthsDown.mpr ⟨hleast, length_le_greedyLength hmember hmost⟩
  | literal word =>
    have hword : seg = word := h
    refine ⟨[], ?_⟩
    unfold Pattern.run
    rw [hword, if_pos (List.isPrefixOf_iff_prefix.mpr (List.prefix_append _ _))]
    exact List.mem_singleton.mpr rfl
  | seq first second ihfirst ihsecond =>
    obtain ⟨a, b, rfl, ha, hb⟩ := h
    obtain ⟨captures, hfirst⟩ := ihfirst ha (b ++ rest)
    obtain ⟨captures', hsecond⟩ := ihsecond hb rest
    rw [← List.append_assoc] at hfirst
    have hbehind : (b.length, captures') ∈ second.run ((a ++ b ++ rest).drop a.length) := by
      rw [List.append_assoc, List.drop_left]
      exact hsecond
    refine ⟨captures ++ captures', List.mem_flatMap.mpr
      ⟨(a.length, captures), hfirst, List.mem_map.mpr ⟨(b.length, captures'), hbehind, ?_⟩⟩⟩
    rw [List.length_append]
  | optional part ih =>
    rcases h with hpart | hnone
    · obtain ⟨captures, hrun⟩ := ih hpart rest
      exact ⟨captures, List.mem_append_left _ hrun⟩
    · rw [hnone]
      exact ⟨_, List.mem_append_right _ (List.mem_singleton.mpr rfl)⟩
  | group part ih =>
    obtain ⟨captures, hrun⟩ := ih h rest
    exact ⟨_, List.mem_map.mpr ⟨_, hrun, rfl⟩⟩

/-- A match is found exactly where the text has a text of the pattern. The matcher moves on by
one character where it finds none. -/
theorem Pattern.occurs_iff {p : Pattern} {text : List Char} :
    p.occurs text = true ↔ ∃ before seg after, text = before ++ seg ++ after ∧ p.Accepts seg := by
  unfold Pattern.occurs
  constructor
  · intro h
    induction text with
    | nil =>
      unfold Pattern.find at h
      rw [Option.isSome_map] at h
      obtain ⟨r, hr⟩ := Option.isSome_iff_exists.mp h
      obtain ⟨-, haccepts⟩ := Pattern.run_sound (List.mem_of_mem_head? hr)
      exact ⟨[], [], [], rfl, by simpa using haccepts⟩
    | cons c text ih =>
      unfold Pattern.find at h
      cases hr : (p.run (c :: text)).head? with
      | some r =>
        obtain ⟨-, haccepts⟩ := Pattern.run_sound (List.mem_of_mem_head? hr)
        exact ⟨[], _, (c :: text).drop r.1, (List.take_append_drop _ _).symm, haccepts⟩
      | none =>
        rw [hr] at h
        obtain ⟨before, seg, after, htext, haccepts⟩ := ih h
        exact ⟨c :: before, seg, after, by rw [htext]; rfl, haccepts⟩
  · rintro ⟨before, seg, after, rfl, haccepts⟩
    obtain ⟨captures, hrun⟩ := Pattern.run_complete haccepts after
    have hne : (p.run (seg ++ after)).head? ≠ none := by
      rw [Ne, List.head?_eq_none_iff]
      exact List.ne_nil_of_mem hrun
    obtain ⟨r, hr⟩ := Option.ne_none_iff_exists'.mp hne
    rw [List.append_assoc]
    induction before with
    | nil =>
      rw [List.nil_append]
      cases htext : seg ++ after with
      | nil =>
        rw [htext] at hr
        unfold Pattern.find
        rw [hr]
        rfl
      | cons c text =>
        rw [htext] at hr
        unfold Pattern.find
        rw [hr]
        rfl
    | cons c before ih =>
      rw [List.cons_append]
      unfold Pattern.find
      cases (p.run (c :: (before ++ (seg ++ after)))).head? with
      | some r => rfl
      | none => exact ih

/-- A pattern that does not occur is not found. -/
theorem Pattern.find_eq_none {p : Pattern} {text : List Char} (h : p.occurs text = false) :
    p.find text = none := by
  unfold Pattern.occurs at h
  cases hfind : p.find text with
  | none => rfl
  | some captures =>
    rw [hfind] at h
    cases h

/-- A character of every text of a pattern. -/
def Pattern.requires (c : Char) : Pattern → Bool
  | .chars _ _ _ => false
  | .literal word => word.contains c
  | .seq first second => first.requires c || second.requires c
  | .optional _ => false
  | .group part => part.requires c

/-- A character that a pattern requires is in everything it accepts. -/
theorem Pattern.mem_of_requires {p : Pattern} {c : Char} {seg : List Char}
    (h : p.requires c = true) (hseg : p.Accepts seg) : c ∈ seg := by
  induction p generalizing seg with
  | chars member least most => cases h
  | literal word =>
    have hword : seg = word := hseg
    rw [hword]
    simpa [Pattern.requires] using h
  | seq first second ihfirst ihsecond =>
    obtain ⟨a, b, rfl, ha, hb⟩ := hseg
    rcases Bool.or_eq_true_iff.mp h with hfirst | hsecond
    · exact List.mem_append_left _ (ihfirst hfirst ha)
    · exact List.mem_append_right _ (ihsecond hsecond hb)
  | optional part ih => cases h
  | group part ih => exact ih h hseg

/-- A text without one of them has no match. -/
theorem Pattern.occurs_of_not_mem {p : Pattern} {c : Char} {text : List Char}
    (h : p.requires c = true) (hc : c ∉ text) : p.occurs text = false := by
  cases hoccurs : p.occurs text with
  | false => rfl
  | true =>
    obtain ⟨before, seg, after, rfl, haccepts⟩ := Pattern.occurs_iff.mp hoccurs
    have hmem := Pattern.mem_of_requires h haccepts
    exact absurd (List.mem_append_left _ (List.mem_append_right _ hmem)) hc

/-- The first match at the start of a text takes the given part of it. -/
def Pattern.First (p : Pattern) (seg rest : List Char) (captures : Captures) : Prop :=
  (p.run (seg ++ rest)).head? = some (seg.length, captures)

/-- The greatest length is tried first. -/
theorem head_lengthsDown {least n : ℕ} (h : least ≤ n) :
    (lengthsDown least n).head? = some n := by
  cases n with
  | zero => simp [lengthsDown, Nat.le_zero.mp h]
  | succ n => simp [lengthsDown, h]

/-- A repetition takes all that it can. -/
theorem Pattern.first_chars {member : Char → Bool} {least : ℕ} {most : Option ℕ}
    {seg rest : List Char} (hseg : ∀ c ∈ seg, member c = true) (hleast : least ≤ seg.length)
    (hmost : ∀ n ∈ most, seg.length ≤ n)
    (hstop : seg.length ∈ most ∨ ∀ c ∈ rest.head?, member c = false) :
    (Pattern.chars member least most).First seg rest [] := by
  have hgreedy : greedyLength member most (seg ++ rest) = seg.length := by
    refine Nat.le_antisymm ?_ (length_le_greedyLength hseg hmost)
    rcases hstop with hfull | hnext
    · rw [Option.mem_def.mp hfull]
      exact Nat.min_le_left _ _
    · refine Nat.le_trans (greedyLength_le member most _) ?_
      rw [List.takeWhile_append_of_pos hseg, List.length_append]
      cases rest with
      | nil => simp
      | cons c rest =>
        have hc := hnext c rfl
        simp [hc]
  unfold Pattern.First Pattern.run
  rw [hgreedy, List.head?_map, head_lengthsDown hleast]
  rfl

/-- A literal word matches itself first. -/
theorem Pattern.first_literal (word rest : List Char) :
    (Pattern.literal word).First word rest [] := by
  unfold Pattern.First Pattern.run
  rw [if_pos (List.isPrefixOf_iff_prefix.mpr (List.prefix_append _ _))]
  rfl

/-- First matches of two parts are the first match of their sequence. -/
theorem Pattern.first_seq {first second : Pattern} {a b rest : List Char}
    {captures captures' : Captures} (hfirst : first.First a (b ++ rest) captures)
    (hsecond : second.First b rest captures') :
    (Pattern.seq first second).First (a ++ b) rest (captures ++ captures') := by
  unfold Pattern.First at hfirst hsecond ⊢
  obtain ⟨more, hmore⟩ := List.head?_eq_some_iff.mp hfirst
  obtain ⟨more', hmore'⟩ := List.head?_eq_some_iff.mp hsecond
  rw [Pattern.run, List.append_assoc, hmore, List.flatMap_cons, List.drop_left, hmore']
  simp

/-- A group captures the first match of its part. -/
theorem Pattern.first_group {part : Pattern} {seg rest : List Char} {captures : Captures}
    (h : part.First seg rest captures) :
    (Pattern.group part).First seg rest (some seg :: captures) := by
  unfold Pattern.First at h ⊢
  rw [Pattern.run, List.head?_map, h, Option.map_some, List.take_left]

/-- An optional part that matches is taken first. -/
theorem Pattern.first_optional {part : Pattern} {seg rest : List Char} {captures : Captures}
    (h : part.First seg rest captures) : (Pattern.optional part).First seg rest captures := by
  unfold Pattern.First at h ⊢
  rw [Pattern.run, List.head?_append, h]
  rfl

/-- A part that has no match is left out. -/
theorem Pattern.first_absent {part : Pattern} {rest : List Char} (h : part.run rest = []) :
    (Pattern.optional part).First [] rest (List.replicate part.groups none) := by
  unfold Pattern.First
  rw [Pattern.run, List.nil_append, h]
  rfl

/-- The match is the first one from the left, and what it captures is what the first way to
match captures. -/
theorem Pattern.find_first {p : Pattern} {before seg rest : List Char} {captures : Captures}
    (hbefore : ∀ a c b, before = a ++ c :: b → p.run (c :: b ++ (seg ++ rest)) = [])
    (h : p.First seg rest captures) : p.find (before ++ (seg ++ rest)) = some captures := by
  unfold Pattern.First at h
  induction before with
  | nil =>
    rw [List.nil_append]
    cases htext : seg ++ rest with
    | nil =>
      rw [htext] at h
      unfold Pattern.find
      rw [h]
      rfl
    | cons c text =>
      rw [htext] at h
      unfold Pattern.find
      rw [h]
  | cons c before ih =>
    have hhere := hbefore [] c before rfl
    rw [List.cons_append] at hhere ⊢
    unfold Pattern.find
    rw [hhere]
    refine ih ?_
    intro a d b hb
    exact hbefore (c :: a) d b (by rw [hb, List.cons_append])

/-- Where no beginning of a text is one of the pattern, there is no match. -/
theorem Pattern.run_eq_nil {p : Pattern} {text : List Char}
    (h : ∀ seg more, text = seg ++ more → ¬p.Accepts seg) : p.run text = [] := by
  rw [List.eq_nil_iff_forall_not_mem]
  intro r hr
  exact h _ _ (List.take_append_drop r.1 text).symm (Pattern.run_sound hr).2

/-- A text falls apart at a character that it has once. -/
theorem split_unique {c : Char} {x y u v : List Char} (h : x ++ c :: y = u ++ c :: v)
    (hu : c ∉ u) (hv : c ∉ v) : x = u ∧ y = v := by
  rcases List.append_eq_append_iff.mp h with ⟨a, hua, hcy⟩ | ⟨a, hxa, hcv⟩
  · cases a with
    | nil =>
      rw [List.append_nil] at hua
      exact ⟨hua.symm, (List.cons.inj hcy).2⟩
    | cons d a =>
      obtain ⟨hd, -⟩ := List.cons.inj hcy
      refine absurd ?_ hu
      rw [hua, ← hd]
      simp
  · cases a with
    | nil =>
      rw [List.append_nil] at hxa
      exact ⟨hxa, (List.cons.inj hcv).2.symm⟩
    | cons d a =>
      obtain ⟨-, hrest⟩ := List.cons.inj hcv
      refine absurd ?_ hv
      rw [hrest]
      simp

/-- A text falls apart at the last of some characters in front of another one, so two ways to
write a line are the same way. -/
theorem split_before {c d : Char} {x y u m v : List Char} (hcd : c ≠ d)
    (h : x ++ c :: y = u ++ c :: (m ++ d :: v)) (hu : c ∉ u) (hm : c ∉ m) (hv : d ∉ v)
    (hy : d ∈ y) : x = u ∧ y = m ++ d :: v := by
  rcases List.append_eq_append_iff.mp h with ⟨a, hua, hcy⟩ | ⟨a, hxa, hcv⟩
  · cases a with
    | nil =>
      rw [List.append_nil] at hua
      exact ⟨hua.symm, (List.cons.inj hcy).2⟩
    | cons e a =>
      obtain ⟨he, -⟩ := List.cons.inj hcy
      refine absurd ?_ hu
      rw [hua, ← he]
      simp
  · cases a with
    | nil =>
      rw [List.append_nil] at hxa
      exact ⟨hxa, (List.cons.inj hcv).2.symm⟩
    | cons e a =>
      exfalso
      obtain ⟨-, hrest⟩ := List.cons.inj hcv
      rcases List.append_eq_append_iff.mp hrest with ⟨b, hab, hdv⟩ | ⟨b, hmb, hcy⟩
      · cases b with
        | nil => exact hcd (List.cons.inj hdv).1.symm
        | cons f b =>
          obtain ⟨-, hvb⟩ := List.cons.inj hdv
          refine hv ?_
          rw [hvb]
          simp [hy]
      · cases b with
        | nil => exact hcd (List.cons.inj hcy).1
        | cons f b =>
          obtain ⟨hf, -⟩ := List.cons.inj hcy
          refine hm ?_
          rw [hmb, ← hf]
          simp

end IperfRuntime.TextPattern
