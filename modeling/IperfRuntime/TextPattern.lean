import Mathlib.Data.List.Basic

/-!
# Text patterns

Regular expressions with greedy repetition of a character class, optional parts and
capturing groups, as a backtracking matcher runs them: every way to match in the order in
which it is tried, and the first match from the left. Only what the command parser's
expressions use is there.
-/

namespace IperfRuntime.TextPattern

/-- A pattern. Groups are numbered by their opening parentheses. -/
inductive Pattern where
  /-- A repetition of a class, at least and at most so often. -/
  | chars (member : Char → Bool) (least : ℕ) (most : Option ℕ)
  | literal (word : List Char)
  | seq (first second : Pattern)
  | optional (part : Pattern)
  | group (part : Pattern)

/-- The captured texts, `none` for a group that took no part. -/
abbrev Captures := List (Option (List Char))

/-- How many groups a pattern has. -/
def Pattern.groups : Pattern → ℕ
  | .chars _ _ _ => 0
  | .literal _ => 0
  | .seq first second => first.groups + second.groups
  | .optional part => part.groups
  | .group part => part.groups + 1

/-- How many characters a greedy repetition takes. -/
def greedyLength (member : Char → Bool) : Option ℕ → List Char → ℕ
  | none, text => (text.takeWhile member).length
  | some most, text => min most (text.takeWhile member).length

/-- The lengths of a repetition, the greatest first. -/
def lengthsDown (least : ℕ) : ℕ → List ℕ
  | 0 => if least = 0 then [0] else []
  | n + 1 => if least ≤ n + 1 then (n + 1) :: lengthsDown least n else []

/-- The matches at the start of a text, with their lengths, in the order in which they are
tried. -/
def Pattern.run : Pattern → List Char → List (ℕ × Captures)
  | .chars member least most, text =>
    (lengthsDown least (greedyLength member most text)).map fun n => (n, [])
  | .literal word, text => if word.isPrefixOf text then [(word.length, [])] else []
  | .seq first second, text =>
    (first.run text).flatMap fun r =>
      (second.run (text.drop r.1)).map fun r' => (r.1 + r'.1, r.2 ++ r'.2)
  | .optional part, text => part.run text ++ [(0, List.replicate part.groups none)]
  | .group part, text => (part.run text).map fun r => (r.1, some (text.take r.1) :: r.2)

/-- The captures of the first match from the left. -/
def Pattern.find (p : Pattern) : List Char → Option Captures
  | [] => (p.run []).head?.map Prod.snd
  | c :: text =>
    match (p.run (c :: text)).head? with
    | some r => some r.2
    | none => p.find text

/-- Whether a text has a match. -/
def Pattern.occurs (p : Pattern) (text : List Char) : Bool := (p.find text).isSome

/-- The text of a group, empty where the group took no part. -/
def groupValue (captures : Captures) (i : ℕ) : List Char :=
  match captures[i - 1]? with
  | some (some text) => text
  | _ => []

/-- The patterns one behind the other. -/
def sequence : List Pattern → Pattern
  | [] => .literal []
  | [p] => p
  | p :: rest => .seq p (sequence rest)

end IperfRuntime.TextPattern
