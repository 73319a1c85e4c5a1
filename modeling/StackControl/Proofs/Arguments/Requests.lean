import StackControl.Arguments.Command
import StackControl.Proofs.Arguments.Words

/-!
# Reading requests

A request is read in two parts, before its subcommand and after it.  What follows the subcommand is
read by the subcommand's own grammar, as if nothing stood before it.
-/

namespace StackControl.Arguments

open Lifecycle (Command)

variable {program token : Bytes} {arguments tokens : List Bytes} {name : String}

/-- The subcommand is a token that names it, and is followed by what is left to read. -/
theorem exists_suffix_of_read {g : Grammar} {r r' : Reading} {rest : List Bytes}
    (h : g.read r tokens = .ok (r', some (name, rest))) :
    ∃ token, token :: rest <:+ tokens ∧ g.subcommand? token = some name := by
  induction tokens generalizing r with
  | nil => cases h
  | cons token tokens ih =>
      rw [Grammar.read] at h
      split at h
      next hname =>
        cases h
        refine ⟨token, List.suffix_refl _, ?_⟩
        split at hname
        · cases hname
        · exact hname
      next =>
        obtain ⟨read, -, h⟩ := exists_of_bind_eq_ok h
        obtain ⟨found, hsuffix, hname⟩ := ih h
        exact ⟨found, hsuffix.trans (List.suffix_cons token tokens), hname⟩

/-- What follows the subcommand of a request is read by the grammar of the subcommand. -/
theorem exists_subcommand_of_parse {request : Request} (h : parse arguments = .ok request) :
    ∃ name token tokens before after, token :: tokens <:+ arguments.drop 1 ∧
      toolGrammar.subcommand? token = some name ∧
        (commandGrammar name).parseFlat tokens = .ok after ∧
          request = ⟨settingsOf before after, commandOf after name⟩ := by
  obtain ⟨⟨before, name, after⟩, hparse, h⟩ := exists_of_bind_eq_ok h
  cases h
  obtain ⟨⟨r, next⟩, hread, hparse⟩ := exists_of_bind_eq_ok hparse
  cases next with
  | none =>
      obtain ⟨_, -, hparse⟩ := exists_of_bind_eq_ok hparse
      cases hparse
  | some next =>
      obtain ⟨inner, hinner, hparse⟩ := exists_of_bind_eq_ok hparse
      obtain ⟨_, -, hparse⟩ := exists_of_bind_eq_ok hparse
      cases hparse
      obtain ⟨token, hsuffix, hname⟩ := exists_suffix_of_read hread
      exact ⟨_, token, _, _, _, hsuffix, hname, hinner, rfl⟩

theorem exists_parseFlat_of_parse {request : Request} (h : parse arguments = .ok request) :
    ∃ name tokens before after, tokens <:+ arguments ∧
      (commandGrammar name).parseFlat tokens = .ok after ∧
        request = ⟨settingsOf before after, commandOf after name⟩ := by
  obtain ⟨name, token, tokens, before, after, hsuffix, -, hinner, hrequest⟩ :=
    exists_subcommand_of_parse h
  have htokens : tokens <:+ arguments :=
    ((List.suffix_cons token tokens).trans hsuffix).trans (List.drop_suffix 1 arguments)
  exact ⟨name, tokens, before, after, htokens, hinner, hrequest⟩

/-- A command line that begins with a subcommand has nothing before it. -/
theorem parse_cons (hname : toolGrammar.subcommand? token = some name) :
    parse (program :: token :: tokens) =
      ((commandGrammar name).parseFlat tokens).map fun after =>
        ⟨settingsOf ⟨[], []⟩ after, commandOf after name⟩ := by
  have hread : toolGrammar.read .start (token :: tokens) = .ok (.start, some (name, tokens)) := by
    rw [Grammar.read, show (Reading.start.onlyWords || Grammar.awaitsValue .start) = false from rfl,
      if_neg Bool.false_ne_true, hname]
  rw [parse, List.drop_one, List.tail_cons, Grammar.parse, hread]
  dsimp only [bind, Except.bind]
  cases (commandGrammar name).parseFlat tokens <;> rfl

end StackControl.Arguments
