import EmailOps.Workspaces.Members

/-!
# The access list

Who may sign in at all is written in one variable of the environment: pairs of a pattern and a
role, after each other. A pattern is an address, or `*@` and a domain.

* `parseAccessList` reads the pairs, and `getRules` decides between the variable and what stands
  in for it.
* `exists_entry_of_resolves`: who is let in has an entry, for the address or for its domain.
-/

namespace EmailOps
namespace Auth

open Framework Framework.Text
open Workspaces (WorkspaceRole AccessRule resolveUserAccess)

/-- A role, by its name in the schema. -/
def roleOfName (name : Text) : Option WorkspaceRole :=
  if name = "OWNER".toList then some .owner
  else if name = "ADMIN".toList then some .admin
  else if name = "MANAGER".toList then some .manager
  else if name = "MEMBER".toList then some .member
  else if name = "VIEWER".toList then some .viewer
  else none

section Parse

variable [CaseMapping] (toUpperCase : Text → Text)

/-- An entry; one that is not understood is passed over. -/
def parseEntry (token : Text) : Option AccessRule :=
  match ((trim token).splitOn ':').map trim with
  | pattern :: role :: _ =>
    if pattern = [] || role = [] then none
    else
      (roleOfName (toUpperCase role)).map fun role =>
        let pattern := toLowerCase pattern
        let isDomain := "*@".toList.isPrefixOf pattern
        { pattern, isDomain, domain := if isDomain then pattern.drop 2 else [], role }
  | _ => none

/-- `parseAccessList` -/
def parseAccessList (raw : Text) : List AccessRule :=
  (raw.splitOn ',').filterMap (parseEntry toUpperCase)

/-- `LEGACY_FALLBACK` -/
def legacyFallback : List AccessRule :=
  [⟨"owner@example.com".toList, false, [], .owner⟩, ⟨"team@example.com".toList, false, [], .owner⟩]

/-- `getRules`, of the variable. One that is set but blank denies all. -/
def getRules (raw : Option Text) : List AccessRule :=
  match raw with
  | some raw => if trim raw = [] then [] else parseAccessList toUpperCase (trim raw)
  | none => legacyFallback

end Parse

section Resolve

variable [CaseMapping] {toUpperCase : Text → Text}

/-- What stands behind the first `@` of an address. -/
def domainOf (email : Text) : Text :=
  ((toLowerCase email).dropWhile (· ≠ '@')).tail

/-- The rule is about the address. -/
def Covers (rule : AccessRule) (email : Text) : Prop :=
  rule.isDomain = false ∧ rule.pattern = toLowerCase email ∨
    rule.isDomain = true ∧ rule.domain = domainOf email

/-- **Who is let in is covered by a rule of the role.** -/
theorem exists_rule_of_resolves {rules : List AccessRule} {email : Text} {role : WorkspaceRole}
    (h : resolveUserAccess rules email = some role) :
    email ≠ [] ∧ ∃ rule ∈ rules, Covers rule email ∧ rule.role = role := by
  rw [resolveUserAccess] at h
  split at h
  · cases h
  · next hne =>
    refine ⟨hne, ?_⟩
    dsimp only at h
    split at h
    · next exact hfind =>
      obtain rfl := Option.some.inj h
      have hexact := List.find?_some hfind
      simp only [Bool.and_eq_true, Bool.not_eq_eq_eq_not, Bool.not_true, decide_eq_true_eq] at hexact
      exact ⟨exact, List.mem_of_find?_eq_some hfind, .inl hexact, rfl⟩
    · split at h
      · cases h
      · obtain ⟨wild, hfind, rfl⟩ := Option.map_eq_some_iff.mp h
        have hwild := List.find?_some hfind
        simp only [Bool.and_eq_true, decide_eq_true_eq] at hwild
        exact ⟨wild, List.mem_of_find?_eq_some hfind, .inr hwild, rfl⟩

/-- An entry of the variable that admits an address, in a role: what it was before the colon is
the address or its domain, in any case. -/
def Admits (toUpperCase : Text → Text) (entry email : Text) (role : WorkspaceRole) : Prop :=
  ∃ pattern name more, ((trim entry).splitOn ':').map trim = pattern :: name :: more ∧
    roleOfName (toUpperCase name) = some role ∧
    (toLowerCase pattern = toLowerCase email ∨ toLowerCase pattern = "*@".toList ++ domainOf email)

/-- **Who is let in has an entry.** -/
theorem exists_entry_of_resolves {raw email : Text} {role : WorkspaceRole}
    (h : resolveUserAccess (parseAccessList toUpperCase raw) email = some role) :
    ∃ entry ∈ raw.splitOn ',', Admits toUpperCase entry email role := by
  obtain ⟨-, rule, hrule, hcovers, rfl⟩ := exists_rule_of_resolves h
  obtain ⟨entry, hentry, hparse⟩ := List.mem_filterMap.mp hrule
  refine ⟨entry, hentry, ?_⟩
  rw [parseEntry] at hparse
  split at hparse
  · next pattern name more hfields =>
    split at hparse
    · cases hparse
    · obtain ⟨role, hrole, rfl⟩ := Option.map_eq_some_iff.mp hparse
      refine ⟨pattern, name, more, hfields, hrole, ?_⟩
      rcases hcovers with ⟨-, hpattern⟩ | ⟨hdomain, heq⟩
      · exact .inl hpattern
      · -- a domain is what stands after `*@`
        refine .inr ?_
        dsimp only at hdomain heq
        rw [if_pos hdomain] at heq
        obtain ⟨rest, hrest⟩ := List.isPrefixOf_iff_prefix.mp hdomain
        rw [← hrest] at heq ⊢
        rw [← heq]
        rfl
  · cases hparse

end Resolve

end Auth
end EmailOps
