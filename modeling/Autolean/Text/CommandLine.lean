import Mathlib.Data.List.Basic

/-! Command lines: options, each with a value or not, up to the first positional argument,
which names the program that gets the rest. -/
namespace Autolean.Text

inductive Arity where
  | flag
  | valued
  deriving DecidableEq

structure CommandLine where
  options : List (String × Option String)
  program : String
  arguments : List String

def CommandLine.withOptions (options : List (String × Option String)) (line : CommandLine) : CommandLine :=
  { line with options := options ++ line.options }

/-- A token that is read as an option: a dash alone is positional. -/
def IsOption (token : String) : Prop := token.toList.head? = some '-' ∧ token ≠ "-"

instance (token : String) : Decidable (IsOption token) := inferInstanceAs (Decidable (_ ∧ _))

/-- `arity` knows the options. An option may carry its value after an equals sign, and two
dashes end the options. -/
def parseOptions (arity : String → Option Arity) : List String → Option CommandLine
  | [] => none
  | token :: rest =>
    if token = "--" then
      match rest with
      | [] => none
      | program :: arguments => some ⟨[], program, arguments⟩
    else if IsOption token then
      if '=' ∈ token.toList then
        let name := String.ofList (token.toList.takeWhile (· ≠ '='))
        let value := String.ofList ((token.toList.dropWhile (· ≠ '=')).drop 1)
        if (arity name).isSome then (parseOptions arity rest).map (·.withOptions [(name, some value)]) else none
      else match arity token with
        | some .flag => (parseOptions arity rest).map (·.withOptions [(token, none)])
        | some .valued =>
          match rest with
          | [] => none
          | value :: rest => (parseOptions arity rest).map (·.withOptions [(token, some value)])
        | none => none
    else some ⟨[], token, rest⟩

section
variable {arity : String → Option Arity} {tokens : List String} {line : CommandLine}

theorem withOptions_withOptions (first second : List (String × Option String)) (line : CommandLine) :
    (line.withOptions second).withOptions first = line.withOptions (first ++ second) := by
  simp [CommandLine.withOptions]

private theorem withOptions_lt {options : List (String × Option String)} {parsed : Option CommandLine} {n : ℕ}
    (ih : ∀ {line : CommandLine}, parsed = some line → line.arguments.length < n)
    (h : parsed.map (·.withOptions options) = some line) : line.arguments.length < n := by
  obtain ⟨inner, hinner, rfl⟩ := Option.map_eq_some_iff.mp h
  exact (ih hinner : inner.arguments.length < n)

theorem parseOptions_arguments_lt (h : parseOptions arity tokens = some line) :
    line.arguments.length < tokens.length := by
  fun_induction parseOptions arity tokens generalizing line with
  | case1 | case2 | case5 | case7 | case9 => cases h
  | case3 | case10 =>
    cases h
    simp only [List.length_cons]
    omega
  | case4 | case6 =>
    rename_i ih
    exact Nat.lt_succ_of_lt (withOptions_lt ih h)
  | case8 =>
    rename_i ih
    exact Nat.lt_succ_of_lt (Nat.lt_succ_of_lt (withOptions_lt ih h))

/-- The tokens of an option as a caller writes it. -/
def renderOption : String × Option String → List String
  | (name, none) => [name]
  | (name, some value) => [name, value]

/-- The parser knows the option by its name, with or without a value as it is given. -/
def Known (arity : String → Option Arity) (o : String × Option String) : Prop :=
  IsOption o.1 ∧ o.1 ≠ "--" ∧ '=' ∉ o.1.toList ∧ arity o.1 = some (if o.2.isSome then .valued else .flag)

theorem parseOptions_render {options : List (String × Option String)} (h : ∀ o ∈ options, Known arity o) :
    parseOptions arity (options.flatMap renderOption ++ tokens) =
      (parseOptions arity tokens).map (·.withOptions options) := by
  induction options with
  | nil => simp [CommandLine.withOptions]
  | cons o options ih =>
    obtain ⟨hoption, hdashes, hequals, harity⟩ := h o List.mem_cons_self
    have hrest := ih fun o' ho' => h o' (List.mem_cons_of_mem _ ho')
    rcases o with ⟨name, _ | value⟩
    · simp only [List.flatMap_cons, renderOption, List.cons_append, List.nil_append]
      rw [parseOptions.eq_def]
      simp [if_neg hdashes, if_pos hoption, if_neg hequals, harity, hrest, withOptions_withOptions, Function.comp_def]
    · simp only [List.flatMap_cons, renderOption, List.cons_append, List.nil_append]
      rw [parseOptions.eq_def]
      simp [if_neg hdashes, if_pos hoption, if_neg hequals, harity, hrest, withOptions_withOptions, Function.comp_def]

theorem parseOptions_positional {program : String} {arguments : List String} (h : ¬ IsOption program) :
    parseOptions arity (program :: arguments) = some ⟨[], program, arguments⟩ := by
  have hdashes : program ≠ "--" := by
    rintro rfl
    exact h (by decide)
  rw [parseOptions.eq_def]
  simp only [if_neg hdashes, if_neg h]

/-- A token that is read as an option leaves fewer arguments than follow it. -/
theorem parseOptions_option_lt {token : String} (hoption : IsOption token)
    (h : parseOptions arity (token :: tokens) = some line) : line.arguments.length < tokens.length := by
  rw [parseOptions.eq_def] at h
  simp only [if_pos hoption] at h
  split at h
  · cases tokens with
    | nil => cases h
    | cons program arguments =>
      cases h
      simp
  · split at h
    · split at h
      · exact withOptions_lt parseOptions_arguments_lt h
      · cases h
    · split at h
      · exact withOptions_lt parseOptions_arguments_lt h
      · cases tokens with
        | nil => cases h
        | cons value rest => exact Nat.lt_succ_of_lt (withOptions_lt parseOptions_arguments_lt h)
      · cases h

end
end Autolean.Text
