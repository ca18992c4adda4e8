-- SUMMARY: Backtracking regular expressions with one group: the ways to match, in order of preference.
import Mathlib.Data.List.Basic

/-!
# Regular expressions

A backtracking matcher tries the alternatives of an expression in a fixed order
and takes the first way that leads to a match. The ways are listed in that
order. Repetition is over single characters, greedy or lazy.
-/

inductive Regex where
  | empty
  | char (p : Char → Bool)
  | seq (r s : Regex)
  | alt (r s : Regex)
  | star (p : Char → Bool) (greedy : Bool)
  | group (r : Regex)
  | endOfLine

namespace Regex

/-- The matched text, the text behind it, and what the group has matched. -/
structure Match where
  text : List Char
  rest : List Char
  group : Option (List Char) := none
  deriving DecidableEq

/-- The ways to repeat a character. -/
def starWays (p : Char → Bool) (greedy : Bool) : List Char → List Match
  | [] => [⟨[], [], none⟩]
  | c :: s =>
    let more := if p c then (starWays p greedy s).map fun m => { m with text := c :: m.text } else []
    if greedy then more ++ [⟨[], c :: s, none⟩] else ⟨[], c :: s, none⟩ :: more

/-- The ways to match at the head of a text. -/
def ways : Regex → List Char → List Match
  | .empty, s => [⟨[], s, none⟩]
  | .char _, [] => []
  | .char p, c :: s => if p c then [⟨[c], s, none⟩] else []
  | .seq r t, s => (ways r s).flatMap fun m =>
      (ways t m.rest).map fun n => ⟨m.text ++ n.text, n.rest, n.group <|> m.group⟩
  | .alt r t, s => ways r s ++ ways t s
  | .star p greedy, s => starWays p greedy s
  | .group r, s => (ways r s).map fun m => { m with group := some m.text }
  | .endOfLine, [] => [⟨[], [], none⟩]
  | .endOfLine, c :: s => if c = '\n' then [⟨[], c :: s, none⟩] else []

def matchHead (r : Regex) (s : List Char) : Option Match := (ways r s).head?

/-- Some part of the text matches. -/
def search (r : Regex) (s : List Char) : Bool := s.tails.any fun t => (r.matchHead t).isSome

/-- The matches from left to right, each after the end of the one before, once
`skip` characters are passed. The expression does not match the empty text. -/
def findallFrom (r : Regex) : Nat → List Char → List Match
  | _, [] => []
  | skip + 1, _ :: s => findallFrom r skip s
  | 0, c :: s =>
    match r.matchHead (c :: s) with
    | some m => m :: findallFrom r (m.text.length - 1) s
    | none => findallFrom r 0 s

/-- The groups of all matches. -/
def findall (r : Regex) (s : List Char) : List (List Char) :=
  (r.findallFrom 0 s).map fun m => m.group.getD []

/-! ## Derived forms -/

def plus (p : Char → Bool) (greedy : Bool) : Regex := .seq (.char p) (.star p greedy)

def opt (r : Regex) : Regex := .alt r .empty

def sequence : List Regex → Regex
  | [] => .empty
  | r :: rs => .seq r (sequence rs)

def oneOf : List Regex → Regex
  | [] => .char fun _ => false
  | [r] => r
  | r :: rs => .alt r (oneOf rs)

/-- A word, whose characters are compared by `same`. -/
def word (same : Char → Char → Bool) (w : String) : Regex :=
  sequence (w.toList.map fun c => .char (same c))

/-- The word as it is written. -/
def lit (w : String) : Regex := word (fun c d => c == d) w

/-- A lazy repetition stops where the rest first matches. -/
example : findall (sequence [lit "-", .group (plus (fun _ => true) false), opt (lit "!")])
    "-ab!-c".toList = [['a'], ['c']] := by decide +kernel

end Regex
