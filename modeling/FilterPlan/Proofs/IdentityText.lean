import FilterPlan.Identity
import FilterPlan.Proofs.Blank

set_option autoImplicit false

namespace FilterPlan

namespace Identity

def Versionless (text : String) : Prop := text.toList.getLast? = some ':'

def Nameless (text : String) : Prop :=
  text = "" ∨ ∃ version, version ≠ [] ∧ ':' ∉ version ∧ text.toList = ':' :: version

-- An identity whose text still shows where its name ends, and ends where no blank is lost.
def Legible (identity : Identity) : Prop :=
  let name := identity.name.toList
  match identity.version with
  | none => identity.name ≠ "" ∧ ':' ∉ name ∧ Text.beginsBlank name = false ∧ Text.endsBlank name = false
  | some version =>
      identity.name ≠ "" ∧ Text.beginsBlank name = false ∧
        version ≠ "" ∧ ':' ∉ version.toList ∧ Text.endsBlank version.toList = false

theorem text_named (name : String) : (Identity.mk name none).text = name := rfl

theorem text_versioned (name version : String) :
    (Identity.mk name (some version)).text.toList = name.toList ++ ':' :: version.toList := by
  simp [text]

theorem legible_bare (identity : Identity) (legible : identity.Legible) :
    Text.beginsBlank identity.text.toList = false ∧ Text.endsBlank identity.text.toList = false := by
  obtain ⟨name, version⟩ := identity
  cases version with
  | none => exact legible.2.2
  | some version =>
      obtain ⟨named, begins, exist, _, ends⟩ := legible
      have nameExists : name.toList ≠ [] := mt String.toList_eq_nil_iff.mp named
      have versionExists : version.toList ≠ [] := mt String.toList_eq_nil_iff.mp exist
      constructor
      · rw [text_versioned, Text.begins_blank_append _ _ nameExists]
        exact begins
      · rw [text_versioned, List.append_cons, Text.ends_blank_append _ _ versionExists]
        exact ends

theorem legible_parsed (identity : Identity) (legible : identity.Legible) : parse identity.text = .ok identity := by
  have bare := (Text.trim_same_iff _).mpr (identity.legible_bare legible)
  obtain ⟨name, version⟩ := identity
  rw [parse, bare]
  cases version with
  | none =>
      obtain ⟨named, colonless, _⟩ := legible
      rw [text_named, (Text.split_at_last_none ':' _).mpr colonless]
      have nameExists : name.toList ≠ [] := mt String.toList_eq_nil_iff.mp named
      obtain ⟨c, rest, isName⟩ := List.exists_cons_of_ne_nil nameExists
      simp only [isName]
      rw [← isName, String.ofList_toList]
  | some version =>
      obtain ⟨named, _, exist, colonless, _⟩ := legible
      have nameExists : name.toList ≠ [] := mt String.toList_eq_nil_iff.mp named
      have versionExists : version.toList ≠ [] := mt String.toList_eq_nil_iff.mp exist
      rw [text_versioned, Text.split_at_last_cut ':' _ _ colonless]
      obtain ⟨c, rest, isName⟩ := List.exists_cons_of_ne_nil nameExists
      obtain ⟨d, others, isVersion⟩ := List.exists_cons_of_ne_nil versionExists
      simp only [isName, isVersion]
      rw [← isName, ← isVersion, String.ofList_toList, String.ofList_toList]

inductive Reads (text : String) : Except Fault Identity → Prop where
  | versionless (isVersionless : Versionless text) : Reads text (.error (.emptyVersion text))
  | nameless (isNameless : Nameless text) : Reads text (.error (.emptyName text))
  | identity (identity : Identity) (legible : identity.Legible) (isText : identity.text = text) :
      Reads text (.ok identity)

theorem parse_reads (source : String) : Reads (Text.trim source) (parse source) := by
  have begins := Text.trim_begins source.toList
  have ends := Text.trim_ends source.toList
  rw [parse, Text.trim]
  generalize Text.trimChars source.toList = letters at *
  cases found : Text.splitAtLast? ':' letters with
  | none =>
      have colonless := (Text.split_at_last_none ':' letters).mp found
      cases letters with
      | nil => exact .nameless (Or.inl rfl)
      | cons c rest =>
          have legible : (Identity.mk (String.ofList (c :: rest)) none).Legible := by
            simp only [Legible, String.toList_ofList]
            exact ⟨by simp, colonless, begins, ends⟩
          exact .identity _ legible rfl
  | some parts =>
      obtain ⟨name, version⟩ := parts
      obtain ⟨isText, last⟩ := (Text.split_at_last_iff ':' letters name version).mp found
      subst isText
      cases version with
      | nil => exact .versionless (by simp [Versionless])
      | cons d others =>
          cases name with
          | nil => exact .nameless (Or.inr ⟨d :: others, by simp, last, by simp⟩)
          | cons c rest =>
              rw [Text.begins_blank_append _ _ (by simp)] at begins
              rw [List.append_cons, Text.ends_blank_append _ _ (by simp)] at ends
              let identity : Identity := ⟨String.ofList (c :: rest), some (String.ofList (d :: others))⟩
              have legible : identity.Legible := by
                simp only [identity, Legible, String.toList_ofList]
                exact ⟨by simp, begins, by simp, last, ends⟩
              refine .identity identity legible ?_
              rw [← String.toList_inj, text_versioned]
              simp

theorem version_last (name version : List Char) (exist : version ≠ []) (colonless : ':' ∉ version) :
    (name ++ ':' :: version).getLast? ≠ some ':' := by
  intro isLast
  rw [List.append_cons, List.getLast?_append, List.getLast?_eq_some_getLast exist, Option.some_or] at isLast
  exact colonless (Option.some.inj isLast ▸ List.getLast_mem exist)

theorem nameless_versioned (text : String) (nameless : Nameless text) : ¬ Versionless text := by
  intro versionless
  rw [Versionless] at versionless
  rcases nameless with isEmpty | ⟨version, exist, colonless, isText⟩
  · rw [isEmpty] at versionless
    cases versionless
  · rw [isText] at versionless
    exact version_last [] version exist colonless versionless

theorem legible_versioned (identity : Identity) (legible : identity.Legible) : ¬ Versionless identity.text := by
  intro versionless
  rw [Versionless] at versionless
  obtain ⟨name, version⟩ := identity
  cases version with
  | none => exact legible.2.1 (List.mem_of_getLast? versionless)
  | some version =>
      obtain ⟨_, _, exist, colonless, _⟩ := legible
      rw [text_versioned] at versionless
      exact version_last _ _ (mt String.toList_eq_nil_iff.mp exist) colonless versionless

theorem legible_named (identity : Identity) (legible : identity.Legible) : ¬ Nameless identity.text := by
  intro nameless
  obtain ⟨name, version⟩ := identity
  cases version with
  | none =>
      rcases nameless with isEmpty | ⟨version, _, _, isText⟩
      · exact legible.1 isEmpty
      · have colon : ':' ∈ name.toList := by
          rw [text_named] at isText
          simp [isText]
        exact legible.2.1 colon
  | some version =>
      have nameExists : name.toList ≠ [] := mt String.toList_eq_nil_iff.mp legible.1
      obtain ⟨c, rest, isName⟩ := List.exists_cons_of_ne_nil nameExists
      rcases nameless with isEmpty | ⟨tail, _, colonless, isText⟩
      · have letters := congrArg String.toList isEmpty
        rw [text_versioned, isName] at letters
        cases letters
      · rw [text_versioned, isName] at isText
        have isTail : rest ++ ':' :: version.toList = tail := (List.cons.inj isText).2
        exact colonless (by simp [← isTail])

-- A text is read once the blanks around it are dropped. It is refused when its version or its name is missing, and
-- otherwise names an identity that is shown by the very text and read back from it. An identity of any name and
-- version is read back from its text if and only if it is legible.
theorem text_read_back :
    (∀ source, let text := Text.trim source
      (∃ before after, source.toList = before ++ text.toList ++ after ∧ ∀ c ∈ before ++ after, Text.isBlank c = true) ∧
        Text.beginsBlank text.toList = false ∧ Text.endsBlank text.toList = false ∧
        (parse source = .error (.emptyVersion text) ↔ Versionless text) ∧
        (parse source = .error (.emptyName text) ↔ Nameless text) ∧
        (¬ Versionless text ∧ ¬ Nameless text ↔
          ∃ identity, parse source = .ok identity ∧ identity.text = text ∧ parse identity.text = .ok identity)) ∧
      ∀ identity : Identity, parse identity.text = .ok identity ↔ identity.Legible := by
  constructor
  · intro source
    have letters : (Text.trim source).toList = Text.trimChars source.toList := String.toList_ofList
    have reads := parse_reads source
    dsimp only
    rw [letters]
    refine ⟨Text.trim_within _, Text.trim_begins _, Text.trim_ends _, ?_⟩
    generalize isResult : parse source = result at reads
    cases reads with
    | versionless isVersionless =>
        have named : ¬ Nameless (Text.trim source) := fun nameless => nameless_versioned _ nameless isVersionless
        simp [isVersionless, named]
    | nameless isNameless => simp [nameless_versioned _ isNameless, isNameless]
    | identity identity legible isText =>
        have versioned := identity.legible_versioned legible
        have named := identity.legible_named legible
        have readBack := identity.legible_parsed legible
        rw [isText] at versioned named readBack
        simp [versioned, named, isText, readBack]
  · intro identity
    constructor
    · intro readBack
      have reads := parse_reads identity.text
      rw [readBack] at reads
      cases reads with
      | identity _ legible _ => exact legible
    · exact identity.legible_parsed

example : parse "\u2003 lib:core : 1.0\u00a0\n" = .ok ⟨"lib:core ", some " 1.0"⟩ := by decide

end Identity

end FilterPlan
