import Keeper.Log.Record
import Mathlib.Data.List.Basic

/-!
# Keeper — messages by their parts

A message is put together from literal text and arguments, each argument standing where its template has a
placeholder `%s`. Here such a message is described by its parts, and the template is what these parts spell:
a percent sign of the literal text is doubled, and the place of an argument does not say which one it is.

* **`Part`** — a code point of literal text, or an argument; what it spells in a template and what it shows.
* **`Composes`** — the parts of a message, by its template and arguments.
* **`formatPoints_literal`**, **`formatPoints_argument`** — what is written for the first part of a template.
* **`Composes.text_eq`** — a message shows what its parts show.
* **`text_of_surplus`**, **`text_of_map`** — a template with fewer places than there are arguments is
  refused, unless the argument is a map.
-/

namespace Keeper.Log

/-! ## Parts -/

def percent : CodePoint := .char '%'

/-- The text of an argument. -/
def Argument.display : Argument → Text
  | .value v => v.display
  | .object shown => shown

inductive Part where
  | literal (c : CodePoint)
  | argument (a : Argument)

namespace Part

/-- How a part is spelled in a template. -/
def spelled : Part → List CodePoint
  | .literal c => if c = percent then [percent, percent] else [c]
  | .argument _ => [percent, .char 's']

/-- What a part shows in a message. -/
def shown : Part → List CodePoint
  | .literal c => [c]
  | .argument a => a.display.points

def argument? : Part → Option Argument
  | .literal _ => none
  | .argument a => some a

end Part

def spelled (ps : List Part) : List CodePoint := ps.flatMap Part.spelled

def shown (ps : List Part) : List CodePoint := ps.flatMap Part.shown

/-- The arguments among the parts. -/
def argumentsOf (ps : List Part) : List Argument := ps.filterMap Part.argument?

section Rows

variable (p : Part) (ps qs : List Part)

/-- The equations by which the simplifier takes a template apart, part by part; a message
and its arguments have the same ones. -/
@[simp] theorem spelled_nil : spelled [] = [] := rfl

@[simp] theorem spelled_cons : spelled (p :: ps) = p.spelled ++ spelled ps := rfl

@[simp] theorem spelled_append : spelled (ps ++ qs) = spelled ps ++ spelled qs :=
  List.flatMap_append

@[simp] theorem shown_cons : shown (p :: ps) = p.shown ++ shown ps := rfl

@[simp] theorem shown_append : shown (ps ++ qs) = shown ps ++ shown qs :=
  List.flatMap_append

@[simp] theorem argumentsOf_literal (c : CodePoint) :
    argumentsOf (.literal c :: ps) = argumentsOf ps := rfl

@[simp] theorem argumentsOf_argument (a : Argument) :
    argumentsOf (.argument a :: ps) = a :: argumentsOf ps := rfl

@[simp] theorem argumentsOf_append : argumentsOf (ps ++ qs) = argumentsOf ps ++ argumentsOf qs :=
  List.filterMap_append

theorem shown_map_literal (u : List CodePoint) : shown (u.map .literal) = u := by
  induction u with
  | nil => rfl
  | cons c u ih => exact congrArg (c :: ·) ih

@[simp] theorem argumentsOf_map_literal (u : List CodePoint) : argumentsOf (u.map .literal) = [] := by
  induction u with
  | nil => rfl
  | cons c u ih => exact ih

end Rows

/-- Each part is spelled with a code point at least. -/
theorem length_le_spelled (ps : List Part) : ps.length ≤ (spelled ps).length := by
  induction ps with
  | nil => exact Nat.le_refl 0
  | cons p ps ih =>
    -- Every part spells at least one character, so the text's length is fuel enough for its parts.
    have hp : 1 ≤ p.spelled.length := by
      cases p with
      | literal c =>
        rw [Part.spelled]
        split <;> simp
      | argument a => simp [Part.spelled]
    rw [spelled_cons, List.length_append, List.length_cons]
    omega

/-- The parts of a message: its arguments in their order and, between them, the literal
text. With no arguments the template is not read as one, and is the literal text as it
stands. -/
structure Composes (ps : List Part) (t : Text) (args : List Argument) : Prop where
  arguments : argumentsOf ps = args
  template : t.points = if args.isEmpty then shown ps else spelled ps

/-! ## What is written -/

/-- A directive without flags, width or precision writes a text as it is. -/
@[simp] theorem Directive.writeText_plain (t : Text) : Directive.writeText {} t = t := by
  have hpad : Text.ofChars (List.replicate (0 - t.length) ' ') = ⟨[]⟩ := by
    rw [Nat.zero_sub]
    rfl
  show Text.ofChars (List.replicate (0 - t.length) ' ') ++ t = t
  rw [hpad]
  rfl

/-- A placeholder takes the next argument and is written as its text. -/
theorem writePlaceholder_text (total : Nat) (a : Argument) (queue : List Argument)
    (keyed : Option Fields) (rest : List CodePoint) :
    writePlaceholder total ⟨a :: queue, keyed⟩ (.char 's' :: rest)
      = .ok (a.display, ⟨queue, keyed⟩, rest) := by
  have hwritten : writePlaceholder total ⟨a :: queue, keyed⟩ (.char 's' :: rest)
      = .ok (Directive.writeText {} a.display, ⟨queue, keyed⟩, rest) := rfl
  rw [hwritten, Directive.writeText_plain]

/-- A code point of literal text is written as it is, a doubled percent sign once. -/
theorem formatPoints_literal (total fuel : Nat) (feed : Feed) (c : CodePoint) (rest : List CodePoint) :
    formatPoints total (fuel + 1) feed ((Part.literal c).spelled ++ rest)
      = (formatPoints total fuel feed rest).map (c :: ·) := by
  by_cases hc : c = percent
  · rw [Part.spelled, if_pos hc, hc]
    rfl
  · rw [Part.spelled, if_neg hc, List.singleton_append, formatPoints]
    · rfl
    · exact fun _ h _ => hc h
    · exact hc

/-- A placeholder takes the next argument and writes its text; what is behind it is
formatted with the arguments that are left. -/
theorem formatPoints_argument (total fuel : Nat) (a b : Argument) (queue : List Argument)
    (keyed : Option Fields) (rest : List CodePoint) :
    formatPoints total (fuel + 1) ⟨a :: queue, keyed⟩ ((Part.argument b).spelled ++ rest)
      = (formatPoints total fuel ⟨queue, keyed⟩ rest).map (a.display.points ++ ·) := by
  have hstep : formatPoints total (fuel + 1) ⟨a :: queue, keyed⟩ ((Part.argument b).spelled ++ rest)
      = (writePlaceholder total ⟨a :: queue, keyed⟩ (.char 's' :: rest)).bind fun w =>
          (formatPoints total fuel w.2.1 w.2.2).map (w.1.points ++ ·) := rfl
  rw [hstep, writePlaceholder_text]
  rfl

/-- A template whose parts have the first of the arguments, in their order, shows what
these parts show. Only a map may be left over, since it could have been asked for its
keys. -/
theorem formatPoints_spelled {total fuel : Nat} {ps : List Part} {keyed : Option Fields}
    {left : List Argument} (hleft : keyed = none → left = []) (hfuel : ps.length ≤ fuel) :
    formatPoints total fuel ⟨argumentsOf ps ++ left, keyed⟩ (spelled ps) = .ok (shown ps) := by
  induction ps generalizing fuel with
  | nil =>
    -- At the end nothing may be left over, except for a map, which is never used up.
    have hfinish : (⟨left, keyed⟩ : Feed).finish = .ok () := by
      cases keyed with
      | none => rw [hleft rfl]; rfl
      | some fields => rfl
    show formatPoints total fuel ⟨left, keyed⟩ [] = _
    rw [formatPoints, hfinish]
    rfl
  | cons p ps ih =>
    rw [List.length_cons] at hfuel
    -- One unit of fuel for each part: what is left covers the parts that are left.
    obtain ⟨fuel, rfl⟩ : ∃ n, fuel = n + 1 := ⟨fuel - 1, by omega⟩
    cases p with
    | literal c =>
      rw [spelled_cons, formatPoints_literal, argumentsOf_literal, ih (by omega)]
      rfl
    | argument a =>
      rw [spelled_cons, argumentsOf_argument, List.cons_append, formatPoints_argument, ih (by omega)]
      rfl

/-- A template with fewer places than there are arguments is refused: when the template is
at its end, the feed is not. -/
theorem formatPoints_surplus {total fuel : Nat} {ps : List Part} {queue : List Argument}
    (hfuel : ps.length ≤ fuel) (hqueue : (argumentsOf ps).length < queue.length) :
    formatPoints total fuel ⟨queue, none⟩ (spelled ps) = Value.misused .wrongType := by
  induction ps generalizing fuel queue with
  | nil =>
    obtain ⟨a, queue, rfl⟩ := List.exists_cons_of_length_pos hqueue
    -- The parts are used up and an argument is left: this is the refusal.
    cases fuel <;> rfl
  | cons p ps ih =>
    rw [List.length_cons] at hfuel
    obtain ⟨fuel, rfl⟩ : ∃ n, fuel = n + 1 := ⟨fuel - 1, by omega⟩
    cases p with
    | literal c =>
      rw [spelled_cons, formatPoints_literal, ih (by omega) hqueue]
      rfl
    | argument b =>
      rw [argumentsOf_argument, List.length_cons] at hqueue
      obtain ⟨a, queue, rfl⟩ := List.exists_cons_of_length_pos (Nat.lt_of_le_of_lt (Nat.zero_le _) hqueue)
      rw [spelled_cons, formatPoints_argument, ih (by omega) (Nat.lt_of_succ_lt_succ hqueue)]
      rfl

/-! ## The text of a record -/

/-- A record shows what the parts of its message show. Without arguments a template is
shown as it is, so then its percent signs are no places. -/
theorem Composes.text_eq {ps : List Part} {t : Text} {args : List Argument} (h : Composes ps t args) :
    Record.text ⟨.text t, .positional args⟩ = .ok ⟨shown ps⟩ := by
  obtain ⟨rfl, htemplate⟩ := h
  cases hargs : argumentsOf ps with
  | nil =>
    rw [hargs] at htemplate
    exact congrArg Except.ok (Text.ext htemplate)
  | cons a rest =>
    -- With arguments the template is formatted; without them it is the text itself, as above.
    rw [hargs, List.isEmpty_cons, if_neg Bool.false_ne_true] at htemplate
    show (formatPoints t.length t.length ⟨a :: rest, none⟩ t.points).map Text.mk = _
    have hfuel : ps.length ≤ t.length := by
      rw [Text.length, htemplate]
      exact length_le_spelled ps
    have hshown : formatPoints t.length t.length ⟨argumentsOf ps ++ [], none⟩ (spelled ps)
        = .ok (shown ps) := formatPoints_spelled (fun _ => rfl) hfuel
    rw [List.append_nil] at hshown
    rw [← hargs, htemplate, hshown]
    rfl

/-- A record whose template has fewer places than there are arguments shows nothing. This
is how a place that was taken for part of a secret makes itself felt. -/
theorem text_of_surplus {ps : List Part} {t : Text} {args : List Argument}
    (htemplate : t.points = spelled ps) (hargs : (argumentsOf ps).length < args.length) :
    Record.text ⟨.text t, .positional args⟩ = Value.misused .wrongType := by
  obtain ⟨a, rest, rfl⟩ := List.exists_cons_of_length_pos (Nat.lt_of_le_of_lt (Nat.zero_le _) hargs)
  show (formatPoints t.length t.length ⟨a :: rest, none⟩ t.points).map Text.mk = _
  have hfuel : ps.length ≤ t.length := by
    rw [Text.length, htemplate]
    exact length_le_spelled ps
  rw [htemplate, formatPoints_surplus hfuel hargs]
  rfl

/-- A record whose only argument is a map shows what the parts of its template show,
whether or not the map has a place in it. -/
theorem text_of_map {ps : List Part} {t : Text} {fields : Fields} (hne : fields ≠ [])
    (htemplate : t.points = spelled ps)
    (hplaces : argumentsOf ps = [.value (.map fields)] ∨ argumentsOf ps = []) :
    Record.text ⟨.text t, .keyed fields⟩ = .ok ⟨shown ps⟩ := by
  obtain ⟨left, hleft⟩ : ∃ left, [.value (.map fields)] = argumentsOf ps ++ left := by
    -- A single map fills the one placeholder, or no placeholder at all.
    rcases hplaces with hplace | hnone
    · exact ⟨[], by rw [hplace, List.append_nil]⟩
    · exact ⟨_, by rw [hnone]; rfl⟩
  obtain ⟨e, rest, rfl⟩ := List.exists_cons_of_ne_nil hne
  show (formatPoints t.length t.length ⟨[.value (.map (e :: rest))], some (e :: rest)⟩ t.points).map
    Text.mk = _
  have hfuel : ps.length ≤ t.length := by
    rw [Text.length, htemplate]
    exact length_le_spelled ps
  rw [htemplate, hleft, formatPoints_spelled (fun hnone => by cases hnone) hfuel]
  rfl

end Keeper.Log
