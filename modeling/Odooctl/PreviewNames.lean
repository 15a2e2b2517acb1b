import Mathlib.Data.List.DropRight
import Odooctl.PitrRetention

/-!
# The names of pull-request previews

`build_preview_spec` of `services/gitops.py`. A preview's identity says which request and which
revision it is for; its database and its filestore carry the project's name before that and are
cut at 63 characters, so that two previews may come to share them.
-/
namespace PreviewNames

open PitrRestoreRecord (Timestamp)
open PitrRetention (HOUR sortedIds)

/-! ## Identities -/

def isHex (c : Char) : Bool := ('0' ≤ c && c ≤ '9') || ('a' ≤ c && c ≤ 'f')

section Names

-- `str.lower`
variable (lower : String → String)

/-- `normalized_revision[:8]`. -/
def short (revision : String) : List Char := (lower revision).toList.take 8

def preview_id (pull_request : ℤ) (revision : String) : Except String String :=
  let normalized_revision := (lower revision).toList
  if pull_request < 1 then .error "pull_request must be a positive integer"
  else if normalized_revision.length < 8 ∨ 64 < normalized_revision.length ∨
      normalized_revision.all isHex = false then
    .error "revision must be an 8-64 character hexadecimal commit id"
  else .ok (s!"pr-{pull_request}-" ++ String.ofList (short lower revision))

/-! ## Database names -/

def isNameChar (c : Char) : Bool :=
  ('a' ≤ c && c ≤ 'z') || ('0' ≤ c && c ≤ '9') || c == '_'

/-- `re.sub(r"[^a-z0-9_]+", "_", text)`, after a replaced character or not. -/
def collapse : Bool → List Char → List Char
  | _, [] => []
  | replaced, c :: cs =>
    if isNameChar c then c :: collapse false cs
    else if replaced then collapse true cs
    else '_' :: collapse true cs

/-- `text.rstrip("_")`. -/
def rstrip (cs : List Char) : List Char := cs.rdropWhile (· = '_')

def db_prefix (project : String) : List Char :=
  rstrip ((collapse false (lower project).toList).dropWhile (· = '_'))

/-- `identity.replace("-", "_")`. -/
def underscored (identity : String) : List Char :=
  identity.toList.map fun c => if c = '-' then '_' else c

def preview_database (project identity : String) : String :=
  String.ofList (rstrip (( db_prefix lower project ++ '_' :: underscored identity).take 63))

/-- The characters of an identity that fit into the name of its database. -/
def room (project : String) : ℕ := 62 - ( db_prefix lower project).length

/-! ## The specification of a preview -/

/-- What is read of the project's configuration. `kubernetes` is whether that is its runtime. -/
structure GitOpsContext where
  enabled : Bool
  kubernetes : Bool
  project : String
  environments : List String
  preview_base_domain : Option String
  preview_source_environment : String
  preview_ttl_hours : ℕ

structure PreviewSpec where
  preview_id : String
  pull_request : ℤ
  revision : String
  source_environment : String
  domain : String
  database : String
  filestore : String
  created_at : Timestamp
  expires_at : Timestamp
  deriving DecidableEq, Repr

def require_gitops (ctx : GitOpsContext) : Except String Unit :=
  if ctx.enabled = false then .error "GitOps rendering is disabled; set gitops.enabled: true"
  else if ctx.kubernetes = false then
    .error "GitOps rendering requires runtime.type: kubernetes"
  else .ok ()

/-- `ctx.project.config.env(source)`. -/
def known_env (ctx : GitOpsContext) (source : String) : Except String Unit :=
  if source ∈ ctx.environments then .ok () else .error s!"Unknown environment '{source}'"

def base_domain (ctx : GitOpsContext) : Except String String :=
  match ctx.preview_base_domain with
  | none => .error "Pull-request environments require gitops.preview_base_domain"
  | some domain => .ok domain

def preview_ttl (ttl : ℤ) : Except String ℕ :=
  if ttl < 1 ∨ 168 < ttl then .error "preview TTL must be between 1 and 168 hours"
  else .ok ttl.toNat

/-- `value or default`. -/
def given {α : Type} [DecidableEq α] (falsy : α) (value : Option α) (default_ : α) : α :=
  match value with
  | none => default_
  | some value => if value = falsy then default_ else value

/-- `now` is the current time where none is given. -/
def build_preview_spec (ctx : GitOpsContext) (pull_request : ℤ) (revision : String)
    (source_environment : Option String) (ttl_hours : Option ℤ) (now : Timestamp) :
    Except String PreviewSpec := do
  require_gitops ctx
  let source := given "" source_environment ctx.preview_source_environment
  known_env ctx source
  let domain ← base_domain ctx
  let ttl ← preview_ttl (given 0 ttl_hours ctx.preview_ttl_hours)
  let identity ← preview_id lower pull_request revision
  let database := preview_database lower ctx.project identity
  return {
    preview_id := identity, pull_request, revision := lower revision,
    source_environment := source, domain := identity ++ "." ++ domain, database,
    filestore := database, created_at := now, expires_at := now + ttl * HOUR }

end Names

/-! ## Cutting texts -/

section Cutting

variable {α : Type} {p : α → Bool} {x : α} {l m xs ys : List α}

theorem rdropWhile_append (h : ∃ c ∈ l, p c = false) :
    (xs ++ l).rdropWhile p = xs ++ l.rdropWhile p := by
  obtain ⟨c, hc, hpc⟩ := h
  have hne : l.reverse.dropWhile p ≠ [] := by
    rw [Ne, List.dropWhile_eq_nil_iff]
    intro hall
    exact absurd (hall c (List.mem_reverse.mpr hc)) (by simp [hpc])
  have hempty : (l.reverse.dropWhile p).isEmpty = false := by simpa using hne
  rw [List.rdropWhile, List.rdropWhile, List.reverse_append, List.dropWhile_append, hempty]
  simp

/-- What is dropped at the end are copies of the character. -/
theorem rdropWhile_replicate [DecidableEq α] (x : α) (l : List α) :
    ∃ n, l = l.rdropWhile (· = x) ++ List.replicate n x := by
  refine ⟨(l.rtakeWhile (· = x)).length, ?_⟩
  have hall : l.rtakeWhile (· = x) = List.replicate (l.rtakeWhile (· = x)).length x := by
    rw [List.eq_replicate_iff]
    refine ⟨rfl, ?_⟩
    intro y hy
    simpa using List.mem_rtakeWhile_imp hy
  rw [← hall]
  exact (List.rdropWhile_append_rtakeWhile).symm

/-- Texts with equally many of a character that end in another one: cut to one length, they
are told apart by what is left once trailing copies of the character are dropped. -/
theorem cut_eq_iff [DecidableEq α] (hl : l.rdropWhile (· = x) = l) (hm : m.rdropWhile (· = x) = m)
    (hcount : l.count x = m.count x) (k : ℕ) :
    (l.take k).rdropWhile (· = x) = (m.take k).rdropWhile (· = x) ↔ l.take k = m.take k := by
  constructor
  swap
  · intro h
    rw [h]
  intro h
  wlog hle : (l.take k).length ≤ (m.take k).length generalizing l m
  · exact (this hm hl hcount.symm h.symm (Nat.le_of_not_le hle)).symm
  obtain ⟨i, hi⟩ := rdropWhile_replicate x (l.take k)
  obtain ⟨j, hj⟩ := rdropWhile_replicate x (m.take k)
  by_cases hsame : (l.take k).length = (m.take k).length
  · have hij : i = j := by
      have hli := congrArg List.length hi
      have hmj := congrArg List.length hj
      rw [List.length_append, List.length_replicate] at hli hmj
      rw [h] at hli
      omega
    rw [hi, hj, h, hij]
  -- the shorter one was not cut, so the longer one has no copies of `x` to lose
  have hwhole : l.take k = l := by
    apply List.take_of_length_le
    rw [List.length_take, List.length_take] at hle hsame
    omega
  rw [hwhole] at h hle hsame ⊢
  rw [hl] at h
  rw [← h] at hj
  have hbound : (m.take k).count x ≤ m.count x := (List.take_sublist k m).count_le x
  rw [hj, List.count_append, List.count_replicate_self] at hbound
  obtain rfl : j = 0 := by omega
  simpa using hj.symm

end Cutting

/-! ## Which previews share a database -/

section Shared

variable {lower : String → String} {ctx : GitOpsContext} {n₁ n₂ : ℤ} {r₁ r₂ : String}
  {m k : ℕ} {h h' : List Char}

/-- A preview's part of its database's name. -/
def stem (m : ℕ) (h : List Char) : List Char := ['p', 'r', '_'] ++ (Nat.toDigits 10 m ++ '_' :: h)

theorem isDigit_ne {c d : Char} (hc : c.isDigit = true) (hd : d.isDigit = false) : c ≠ d := by
  rintro rfl
  exact Bool.false_ne_true (hd.symm.trans hc)

theorem digits_ne {c d : Char} (hc : c ∈ Nat.toDigits 10 m) (hd : d.isDigit = false) : c ≠ d :=
  isDigit_ne (Nat.isDigit_of_mem_toDigits (by decide) (by decide) hc) hd

theorem hex_ne {c d : Char} (hc : isHex c = true) (hd : isHex d = false) : c ≠ d := by
  rintro rfl
  exact Bool.false_ne_true (hd.symm.trans hc)

theorem preview_id_eq {i : String} (hid : preview_id lower n₁ r₁ = .ok i) :
    ∃ m : ℕ, n₁ = m ∧ (short lower r₁).length = 8 ∧ (∀ c ∈ short lower r₁, isHex c = true) ∧
      i.toList = ['p', 'r', '-'] ++ (Nat.toDigits 10 m ++ '-' :: short lower r₁) := by
  unfold preview_id at hid
  dsimp only at hid
  split at hid
  · cases hid
  next hpositive =>
  split at hid
  · cases hid
  next hrevision =>
  obtain rfl := Except.ok.inj hid
  obtain ⟨m, rfl⟩ := Int.eq_ofNat_of_zero_le (by omega : 0 ≤ n₁)
  simp only [not_or, Nat.not_lt, Bool.not_eq_false, List.all_eq_true] at hrevision
  refine ⟨m, rfl, ?_, ?_, ?_⟩
  · rw [short, List.length_take]
    omega
  · exact fun c hc => hrevision.2.2 c (List.mem_of_mem_take hc)
  · simp [String.toList_append, toString, Int.repr, Nat.toList_repr]

theorem underscored_eq {i : String} (hid : preview_id lower n₁ r₁ = .ok i) :
    ∃ m : ℕ, n₁ = m ∧ (short lower r₁).length = 8 ∧ (∀ c ∈ short lower r₁, isHex c = true) ∧
      underscored i = stem m (short lower r₁) := by
  obtain ⟨m, hm, hlength, hhex, hi⟩ := preview_id_eq hid
  refine ⟨m, hm, hlength, hhex, ?_⟩
  have hsame : ∀ cs : List Char, (∀ c ∈ cs, c ≠ '-') →
      cs.map (fun c => if c = '-' then '_' else c) = cs := by
    intro cs hcs
    apply (List.map_congr_left fun c hc => if_neg (hcs c hc)).trans
    exact List.map_id cs
  have hdigits := hsame (Nat.toDigits 10 m) fun c hc => digits_ne hc (by decide)
  have hshort := hsame (short lower r₁) fun c hc => hex_ne (hhex c hc) (by decide)
  simp [underscored, hi, stem, hdigits, hshort]

theorem stem_inj (hlength : h.length = h'.length) {m' : ℕ} :
    stem m h = stem m' h' ↔ m = m' ∧ h = h' := by
  constructor
  swap
  · rintro ⟨rfl, rfl⟩
    rfl
  intro heq
  obtain ⟨hdigits, hrest⟩ := List.append_inj' (List.append_cancel_left heq) (by simp [hlength])
  refine ⟨?_, (List.cons.inj hrest).2⟩
  have hvalue := congrArg (fun ds => Nat.ofDigitChars 10 ds 0) hdigits
  simpa [Nat.ofDigitChars_toDigits] using hvalue

theorem stem_count (hhex : ∀ c ∈ h, isHex c = true) : (stem m h).count '_' = 2 := by
  have hdigits : (Nat.toDigits 10 m).count '_' = 0 :=
    List.count_eq_zero.mpr fun hc => digits_ne hc (by decide) rfl
  have hshort : h.count '_' = 0 :=
    List.count_eq_zero.mpr fun hc => hex_ne (hhex _ hc) (by decide) rfl
  simp [stem, hdigits, hshort]

/-- Nothing trails in a name that was not cut. -/
theorem stem_whole (hhex : ∀ c ∈ h, isHex c = true) (hne : h ≠ []) :
    (stem m h).rdropWhile (· = '_') = stem m h := by
  rw [List.rdropWhile_eq_self_iff]
  intro hl
  have hlast : (stem m h).getLast hl = h.getLast hne := by
    simp [stem, hne]
  rw [hlast, decide_eq_true_eq]
  exact hex_ne (hhex _ (List.getLast_mem hne)) (by decide)

theorem take_cons_append (P u : List Char) :
    (P ++ '_' :: u).take 63 = if P.length < 63 then P ++ '_' :: u.take (62 - P.length)
      else P.take 63 := by
  rw [List.take_append]
  split
  next hlt =>
    obtain ⟨k, hk⟩ : ∃ k, 63 - P.length = k + 1 := ⟨62 - P.length, by omega⟩
    have hk' : 62 - P.length = k := by omega
    rw [hk, hk', List.take_succ_cons, List.take_of_length_le (by omega)]
  next hge =>
    rw [Nat.sub_eq_zero_of_le (by omega), List.take_zero, List.append_nil]

/-- Two stems behind one prefix make one name exactly if they agree on what fits behind it. -/
theorem cut_stems (P : List Char) {m' : ℕ} (hhex : ∀ c ∈ h, isHex c = true) (hne : h ≠ [])
    (hhex' : ∀ c ∈ h', isHex c = true) (hne' : h' ≠ []) :
    rstrip ((P ++ '_' :: stem m h).take 63) = rstrip ((P ++ '_' :: stem m' h').take 63) ↔
      (stem m h).take (62 - P.length) = (stem m' h').take (62 - P.length) := by
  rw [take_cons_append, take_cons_append]
  split
  swap
  next hge =>
    rw [Nat.sub_eq_zero_of_le (by omega)]
    simp
  cases hk : 62 - P.length with
  | zero => simp
  | succ k =>
    have hlead : ∀ (m : ℕ) (h : List Char), ∃ c ∈ (stem m h).take (k + 1), (c = '_' : Bool) = false :=
      fun m h => ⟨'p', List.mem_cons_self, by decide⟩
    have hcons : ∀ u : List Char, P ++ '_' :: u = (P ++ ['_']) ++ u := fun u => by simp
    rw [← cut_eq_iff (stem_whole hhex hne) (stem_whole hhex' hne')
      ((stem_count hhex).trans (stem_count hhex').symm), hcons (List.take (k + 1) (stem m h)),
      hcons (List.take (k + 1) (stem m' h'))]
    unfold rstrip
    rw [rdropWhile_append (hlead m h), rdropWhile_append (hlead m' h'), List.append_cancel_left_eq]

theorem build_preview_spec_eq {pull_request : ℤ} {revision : String}
    {source_environment : Option String} {ttl_hours : Option ℤ} {now : Timestamp}
    {spec : PreviewSpec} (hspec : build_preview_spec lower ctx pull_request revision
      source_environment ttl_hours now = .ok spec) :
    preview_id lower pull_request revision = .ok spec.preview_id ∧
      spec.database = preview_database lower ctx.project spec.preview_id ∧
      ∃ domain, ctx.preview_base_domain = some domain ∧
        spec.domain = spec.preview_id ++ "." ++ domain := by
  obtain ⟨_, -, hspec⟩ := CheckedLists.bind_eq_ok.mp hspec
  obtain ⟨_, -, hspec⟩ := CheckedLists.bind_eq_ok.mp hspec
  obtain ⟨domain, hdomain, hspec⟩ := CheckedLists.bind_eq_ok.mp hspec
  obtain ⟨ttl, -, hspec⟩ := CheckedLists.bind_eq_ok.mp hspec
  obtain ⟨identity, hidentity, hspec⟩ := CheckedLists.bind_eq_ok.mp hspec
  obtain rfl := Except.ok.inj hspec
  refine ⟨hidentity, rfl, domain, ?_, rfl⟩
  unfold base_domain at hdomain
  split at hdomain
  · cases hdomain
  next hbase => rw [hbase, Except.ok.inj hdomain]

variable {s₁ s₂ : PreviewSpec} {e₁ e₂ : Option String} {ttl₁ ttl₂ : Option ℤ} {t₁ t₂ : Timestamp}

end Shared

def asciiLower (text : String) : String := String.ofList (text.toList.map Char.toLower)

/-- A project whose name leaves five characters for the identity. -/
def longNamed : GitOpsContext where
  enabled := true
  kubernetes := true
  project := String.ofList (List.replicate 57 'A')
  environments := ["staging"]
  preview_base_domain := some "preview.example.com"
  preview_source_environment := "staging"
  preview_ttl_hours := 24

def longPreview (pull_request : ℤ) : Except String PreviewSpec :=
  build_preview_spec asciiLower longNamed pull_request "DEADBEEF" none none 0

end PreviewNames
