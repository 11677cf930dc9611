import LocaleKeys.CommandLine.Session
import LocaleKeys.Proofs.Locale.Filling

/-!
# What a command tells

The English texts that tell of a result have one placeholder each, so that what they are filled with
stands in them as it is. A failure is told in one line, the message with a mark before it
(`Session.failureText_english`), and every result of a run can be told (`Session.exists_summary`).
-/

namespace LocaleKeys

namespace Catalogue

/-- Whether the text at a path is a placeholder that names an argument, with nothing but plain text
before and after it. -/
structure HasPlaceholder (c : Catalogue) (path before name after : Text) : Prop where
  text_eq : c.text path [] =
    before ++ Template.openBrace :: (name ++ Template.closeBrace :: after)
  name_isArgumentName : Template.IsArgumentName name
  name_isFree : takenNames.contains name = false
  before_isLiteral : Template.IsLiteral before
  after_isLiteral : Template.IsLiteral after

instance (c : Catalogue) (path before name after : Text) :
    Decidable (HasPlaceholder c path before name after) :=
  decidable_of_iff
    (c.text path [] = before ++ Template.openBrace :: (name ++ Template.closeBrace :: after) ∧
      Template.IsArgumentName name ∧ takenNames.contains name = false ∧
        Template.IsLiteral before ∧ Template.IsLiteral after)
    ⟨fun ⟨h₁, h₂, h₃, h₄, h₅⟩ => ⟨h₁, h₂, h₃, h₄, h₅⟩,
      fun ⟨h₁, h₂, h₃, h₄, h₅⟩ => ⟨h₁, h₂, h₃, h₄, h₅⟩⟩

/-- The message at the path of a placeholder has the text of the argument in its place. -/
theorem HasPlaceholder.message_eq {c : Catalogue} {path before name after : Text}
    (h : HasPlaceholder c path before name after) (v : Value) :
    c.message path [] [(name, v)] = .ok (before ++ (v.text ++ after)) := by
  have hfind : [(name, v)].find? (fun a => takenNames.contains a.1) = none := by
    rw [List.find?_cons, h.name_isFree]
    rfl
  have hlookup : [(name, v)].lookup name = some v := by simp
  rw [message, hfind, h.text_eq]
  exact Template.fill_placeholder h.name_isArgumentName before after h.before_isLiteral
    h.after_isLiteral _ v hlookup

theorem hasPlaceholder_failure :
    HasPlaceholder english "cli.errors.prefix" "❌ " "message" [] := by decide +kernel

theorem hasPlaceholder_verified :
    HasPlaceholder english "cli.status.verified" "✅ " "message" [] := by decide +kernel

theorem hasPlaceholder_success :
    HasPlaceholder english "cli.status.success"
      "✅ Successfully generated translation types and constants in '" "path" "'!" := by
  decide +kernel

theorem hasPlaceholder_source :
    HasPlaceholder english "cli.status.source" "Key schema read from: " "path" [] := by
  decide +kernel

theorem hasPlaceholder_keys :
    HasPlaceholder english "cli.status.keys" "Translation keys: " "count" [] := by decide +kernel

end Catalogue

namespace Session

def failureLine (message : Text) : Text := "❌ " ++ message ++ "\n"

theorem failureText_english (message : Text) :
    failureText .english message = .ok ("❌ " ++ message) := by
  rw [failureText, Catalogue.hasPlaceholder_failure.message_eq, List.append_nil]
  rfl

/-- Every result of a run can be told: a failed one in one line of the errors, and any other one
without an error. -/
theorem exists_summary (r : RunResult) :
    ∃ printed, summary .english r = .ok printed ∧ (r.ok = true → printed.errors = []) ∧
      (r.ok = false → printed = ⟨[], failureLine r.error⟩) := by
  rw [summary]
  cases hok : r.ok with
  | false =>
      rw [failureText_english]
      exact ⟨_, rfl, nofun, fun _ => rfl⟩
  | true =>
      cases r.verification with
      | some v =>
          simp only [Catalogue.hasPlaceholder_verified.message_eq]
          exact ⟨_, rfl, fun _ => rfl, nofun⟩
      | none =>
          simp only [Catalogue.hasPlaceholder_success.message_eq,
            Catalogue.hasPlaceholder_source.message_eq, Catalogue.hasPlaceholder_keys.message_eq]
          exact ⟨_, rfl, fun _ => rfl, nofun⟩

end Session

end LocaleKeys
