import Odooctl.CheckedLists
import Odooctl.ShellRedaction

/-!
# Redaction of nested values

`security/redaction.py`. A mapping is the list of its items, with keys that are texts or anything
else; a leaf that is no text is of any type.
-/
namespace StructuredRedaction

open PythonText (containsText)
open ShellRedaction (replaceText toList_replaceText)
open TextReplacement

def PLACEHOLDER : String := "***"

/-! ## References to environment variables -/

def isNameChar (c : Char) : Bool := c.isAlphanum || c = '_'

/-- The name in a reference with a default at the beginning of the text, and what follows. -/
def envDefault : List Char → Option (List Char × List Char)
  | '$' :: '{' :: cs =>
    let name := cs.takeWhile isNameChar
    let rest := cs.dropWhile isNameChar
    if (name.head?.any fun c => !c.isDigit) ∧ (rest.head? = some ':' ∨ rest.head? = some '-') ∧
        '}' ∈ rest then
      some (name, (rest.dropWhile (· ≠ '}')).drop 1)
    else none
  | _ => none

/-- `_ENV_DEFAULT_RE.sub`; the number counts the characters of a match that are still to be passed
over. -/
def stripFrom : ℕ → List Char → List Char
  | _, [] => []
  | skip + 1, _ :: cs => stripFrom skip cs
  | 0, c :: cs =>
    match envDefault (c :: cs) with
    | some (name, rest) => ['$', '{'] ++ name ++ ['}'] ++ stripFrom (cs.length - rest.length) cs
    | none => c :: stripFrom 0 cs

def strip_env_defaults (text : String) : String := String.ofList (stripFrom 0 text.toList)

/-- `text.startswith("${") and text.endswith("}")`. -/
def isReference (text : String) : Bool :=
  ['$', '{'].isPrefixOf text.toList && ['}'].isSuffixOf text.toList

def _SECRET_KEY_TOKENS : List String := ["password", "secret", "token", "key", "passwd", "pass"]

/-! ## Texts -/

/-- `sorted({...}, key=len, reverse=True)`: of equally long values the set tells which comes
first. -/
structure Values (secret_values : List (Option String)) where
  order : List String
  mem_iff : ∀ v, v ∈ order ↔ some v ∈ secret_values ∧ v ≠ ""
  nodup : order.Nodup
  sorted : order.Pairwise fun v w => w.length ≤ v.length

variable {secret_values : List (Option String)}

def redact_text (values : Values secret_values) (text : String) : String :=
  values.order.foldl (fun out value => replaceText out value PLACEHOLDER) (strip_env_defaults text)

/-! ## Nested values -/

inductive Key (κ : Type) where
  | text (s : String)
  | other (k : κ)

inductive Value (κ σ : Type) where
  | text (s : String)
  | dict (items : List (Key κ × Value κ σ))
  | list (items : List (Value κ σ))
  | tuple (items : List (Value κ σ))
  | other (leaf : σ)

variable {κ σ : Type}

section Redact

variable (lower : String → String) (values : Values secret_values)

def _is_secret_key : Key κ → Bool
  | .text s => _SECRET_KEY_TOKENS.any fun token => containsText (lower s) token
  | .other _ => false

/-- What stands under a key that looks secret. -/
def masked : Value κ σ → Value κ σ
  | .text s =>
    if isReference (strip_env_defaults s) then .text (strip_env_defaults s) else .text PLACEHOLDER
  | _ => .text PLACEHOLDER

mutual

def redact : Value κ σ → Value κ σ
  | .text s => .text (redact_text values s)
  | .dict items => .dict (redactItems items)
  | .list items => .list (redactList items)
  | .tuple items => .tuple (redactList items)
  | .other leaf => .other leaf

def redactItems : List (Key κ × Value κ σ) → List (Key κ × Value κ σ)
  | [] => []
  | (k, v) :: items =>
    (k, if _is_secret_key lower k then masked v else redact v) :: redactItems items

def redactList : List (Value κ σ) → List (Value κ σ)
  | [] => []
  | v :: vs => redact v :: redactList vs

end

end Redact

/-! ## What is asked of the output -/

mutual

/-- The texts in a value, keys excepted. -/
def strings : Value κ σ → List String
  | .text s => [s]
  | .dict items => itemStrings items
  | .list items => listStrings items
  | .tuple items => listStrings items
  | .other _ => []

def itemStrings : List (Key κ × Value κ σ) → List String
  | [] => []
  | (_, v) :: items => strings v ++ itemStrings items

def listStrings : List (Value κ σ) → List String
  | [] => []
  | v :: vs => strings v ++ listStrings vs

end

/-- The text that a value is. -/
def ownText : Value κ σ → List String
  | .text s => [s]
  | _ => []

section Outline

variable (lower : String → String)

mutual

/-- The value without its texts and without what stands under the keys that look secret. -/
def outline : Value κ σ → Value κ σ
  | .text _ => .text ""
  | .dict items => .dict (outlineItems items)
  | .list items => .list (outlineList items)
  | .tuple items => .tuple (outlineList items)
  | .other leaf => .other leaf

def outlineItems : List (Key κ × Value κ σ) → List (Key κ × Value κ σ)
  | [] => []
  | (k, v) :: items =>
    (k, if _is_secret_key lower k then .text "" else outline v) :: outlineItems items

def outlineList : List (Value κ σ) → List (Value κ σ)
  | [] => []
  | v :: vs => outline v :: outlineList vs

end

mutual

/-- The texts that stand right under a key that looks secret, unless such a key is above them. -/
def secretStrings : Value κ σ → List String
  | .text _ => []
  | .dict items => secretItemStrings items
  | .list items => secretListStrings items
  | .tuple items => secretListStrings items
  | .other _ => []

def secretItemStrings : List (Key κ × Value κ σ) → List String
  | [] => []
  | (k, v) :: items =>
    (if _is_secret_key lower k then ownText v else secretStrings v) ++ secretItemStrings items

def secretListStrings : List (Value κ σ) → List String
  | [] => []
  | v :: vs => secretStrings v ++ secretListStrings vs

end

end Outline

/-- No value that is to be masked and has no asterisk occurs in the text. -/
def Free (secret_values : List (Option String)) (s : String) : Prop :=
  ∀ w, some w ∈ secret_values → w ≠ "" → '*' ∉ w.toList → ¬ w.toList <:+: s.toList

/-! ## One text -/

section Texts

variable {values : Values secret_values}

theorem toList_redact_text (values : Values secret_values) (text : String) :
    (redact_text values text).toList =
      replaceAll PLACEHOLDER.toList (values.order.map String.toList)
        (strip_env_defaults text).toList := by
  rw [redact_text]
  generalize strip_env_defaults text = out
  generalize values.order = order
  induction order generalizing out with
  | nil => rfl
  | cons value order ih => rw [List.foldl_cons, ih, toList_replaceText, List.map_cons, replaceAll_cons]

theorem not_mem_placeholder {w : String} (h : '*' ∉ w.toList) :
    ∀ c ∈ w.toList, c ∉ PLACEHOLDER.toList := by
  intro c hc hstar
  have heq : c = '*' := by
    have hall : ∀ d ∈ PLACEHOLDER.toList, d = '*' := CheckedLists.forall_of_all (by decide)
    exact hall c hstar
  exact h (heq ▸ hc)

theorem toList_ne_nil {w : String} (h : w ≠ "") : w.toList ≠ [] :=
  fun hnil => h (String.toList_inj.mp hnil)

theorem redact_text_free (values : Values secret_values) (text : String) :
    Free secret_values (redact_text values text) := by
  intro w hmem hempty hstar
  rw [toList_redact_text]
  refine replaceAll_not_infix (by decide) ?_ (not_mem_placeholder hstar) ?_ _
  · intro v hv
    obtain ⟨value, hvalue, rfl⟩ := List.mem_map.mp hv
    exact toList_ne_nil ((values.mem_iff value).mp hvalue).2
  · exact List.mem_map.mpr ⟨w, (values.mem_iff w).mpr ⟨hmem, hempty⟩, rfl⟩

theorem placeholder_free (secret_values : List (Option String)) :
    Free secret_values PLACEHOLDER := by
  intro w _ hempty hstar hinside
  obtain ⟨c, hc⟩ := List.exists_mem_of_ne_nil _ (toList_ne_nil hempty)
  exact not_mem_placeholder hstar c hc (hinside.mem hc)

end Texts

/-! ## Nested values -/

section Nested

variable {lower : String → String} (values : Values secret_values)

/-- What may stay under a key that looks secret. -/
def Harmless (secret_values : List (Option String)) (s : String) : Prop :=
  isReference (strip_env_defaults s) = true → Free secret_values (strip_env_defaults s)

theorem free_placeholder_only :
    ∀ s ∈ [PLACEHOLDER], Free secret_values s :=
  List.forall_mem_singleton.mpr (placeholder_free secret_values)

theorem masked_free (v : Value κ σ) :
    (∀ s ∈ strings (masked v), Free secret_values s) ↔
      ∀ s ∈ ownText v, Harmless secret_values s := by
  cases v with
  | text s =>
    rw [masked, ownText, List.forall_mem_singleton, Harmless]
    split
    · next href =>
      rw [strings, List.forall_mem_singleton]
      exact ⟨fun hfree _ => hfree, fun hfree => hfree href⟩
    · next href =>
      rw [strings]
      exact ⟨fun _ href' => absurd href' href, fun _ => free_placeholder_only⟩
  | dict items =>
    exact iff_of_true free_placeholder_only (by simp [ownText])
  | list items =>
    exact iff_of_true free_placeholder_only (by simp [ownText])
  | tuple items =>
    exact iff_of_true free_placeholder_only (by simp [ownText])
  | other leaf =>
    exact iff_of_true free_placeholder_only (by simp [ownText])

mutual

theorem redact_free : ∀ v : Value κ σ,
    (∀ s ∈ strings (redact lower values v), Free secret_values s) ↔
      ∀ s ∈ secretStrings lower v, Harmless secret_values s
  | .text s => by
    rw [redact, strings, secretStrings, List.forall_mem_singleton]
    exact iff_of_true (redact_text_free values s) (by simp)
  | .dict items => redactItems_free items
  | .list items => redactList_free items
  | .tuple items => redactList_free items
  | .other leaf => by
    rw [redact, strings, secretStrings]
    simp

theorem redactItems_free : ∀ items : List (Key κ × Value κ σ),
    (∀ s ∈ itemStrings (redactItems lower values items), Free secret_values s) ↔
      ∀ s ∈ secretItemStrings lower items, Harmless secret_values s
  | [] => by
    rw [redactItems, itemStrings, secretItemStrings]
    simp
  | (k, v) :: items => by
    rw [redactItems, itemStrings, secretItemStrings, List.forall_mem_append, List.forall_mem_append,
      redactItems_free items]
    refine and_congr_left fun _ => ?_
    split
    · exact masked_free v
    · exact redact_free v

theorem redactList_free : ∀ vs : List (Value κ σ),
    (∀ s ∈ listStrings (redactList lower values vs), Free secret_values s) ↔
      ∀ s ∈ secretListStrings lower vs, Harmless secret_values s
  | [] => by
    rw [redactList, listStrings, secretListStrings]
    simp
  | v :: vs => by
    rw [redactList, listStrings, secretListStrings, List.forall_mem_append, List.forall_mem_append,
      redactList_free vs, redact_free v]

end

mutual

theorem outline_redact : ∀ v : Value κ σ, outline lower (redact lower values v) = outline lower v
  | .text s => rfl
  | .dict items => by rw [redact, outline, outline, outlineItems_redact items]
  | .list items => by rw [redact, outline, outline, outlineList_redact items]
  | .tuple items => by rw [redact, outline, outline, outlineList_redact items]
  | .other leaf => rfl

theorem outlineItems_redact : ∀ items : List (Key κ × Value κ σ),
    outlineItems lower (redactItems lower values items) = outlineItems lower items
  | [] => rfl
  | (k, v) :: items => by
    rw [redactItems, outlineItems, outlineItems, outlineItems_redact items]
    split
    · rfl
    · rw [outline_redact v]

theorem outlineList_redact : ∀ vs : List (Value κ σ),
    outlineList lower (redactList lower values vs) = outlineList lower vs
  | [] => rfl
  | v :: vs => by
    rw [redactList, outlineList, outlineList, outlineList_redact vs, outline_redact v]

end

/-- No secret is left and nothing but texts and masked values is changed, exactly when no text
that is taken for a reference, under a key that looks secret, holds one. -/
theorem redact_hides_iff (lower : String → String) (values : Values secret_values)
    (v : Value κ σ) :
    ((∀ s ∈ strings (redact lower values v), Free secret_values s) ∧
        outline lower (redact lower values v) = outline lower v) ↔
      ∀ s ∈ secretStrings lower v, isReference (strip_env_defaults s) = true →
        Free secret_values (strip_env_defaults s) := by
  rw [and_iff_left (outline_redact values v), redact_free]
  rfl

def oneSecret : Values [some "hunter2"] where
  order := ["hunter2"]
  mem_iff := by simp +contextual
  nodup := by simp
  sorted := by simp

/-- Two references with a password between them, under `password`. -/
def credentials : Value Empty Empty :=
  .dict [(.text "password", .text "$\x7bDB_USER\x7d:hunter2@$\x7bDB_HOST\x7d")]

theorem password_between_references_shows :
    ¬ ∀ s ∈ strings (redact String.toLower oneSecret credentials), Free [some "hunter2"] s := by
  have hstrings : strings (redact String.toLower oneSecret credentials) =
      ["$\x7bDB_USER\x7d:hunter2@$\x7bDB_HOST\x7d"] := by decide +kernel
  rw [hstrings, List.forall_mem_singleton]
  intro hfree
  exact hfree "hunter2" (by simp) (by decide) (by decide) (by decide)

end Nested

end StructuredRedaction
