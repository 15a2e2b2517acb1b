import Odooctl.EnvironmentServices

/-!
# The databases of different environments

Every environment owns three names: its live database, the temporary one that a restore or
a clone fills, and the one that a swap sets the live database aside under. The server cuts
all of them at 63 bytes. The configuration keeps them apart exactly where no name is cut
into another.
-/
namespace DatabaseNames

open EffectPrograms PostgresCatalog DatabaseCutover SwapTempDatabase
open CheckedLists ProjectConfiguration FilestoreAdapters EnvironmentServices PythonText

/-! ## Names that the validators accept -/

def Ascii (n : String) : Prop := ∀ c ∈ n.toList, c.utf8Size = 1

theorem serverName_of_ascii {n : String} (h : Ascii n) :
    serverName n = String.ofList (n.toList.take 63) := by
  rw [serverName, truncateUtf8_of_ascii h]

theorem Ascii.append {m n : String} (hm : Ascii m) (hn : Ascii n) : Ascii (m ++ n) := by
  intro c hc
  rw [String.toList_append] at hc
  rcases List.mem_append.mp hc with hc | hc
  · exact hm c hc
  · exact hn c hc

theorem utf8Size_of_isIdentifierChar {c : Char} (h : isIdentifierChar c = true) :
    c.utf8Size = 1 := by
  unfold isIdentifierChar at h
  simp only [Bool.or_eq_true, decide_eq_true_eq] at h
  rcases h with ((h | rfl) | rfl) | rfl
  · exact utf8Size_of_isAlphanum h
  · decide
  · decide
  · decide

/-- A valid identifier is not empty and has characters of identifiers only. -/
theorem validate_identifier_ok {value field_name : String}
    (h : validate_identifier value field_name = .ok value) :
    (∀ c ∈ value.toList, isIdentifierChar c = true) ∧ value.toList ≠ [] ∧
      value.toList.length ≤ 64 := by
  unfold validate_identifier at h
  split at h
  · cases h
  next hvalid =>
  simp only [not_or, Nat.not_lt, Bool.not_eq_false] at hvalid
  obtain ⟨hlen, -, hmatch⟩ := hvalid
  refine ⟨?_, ?_, hlen⟩
  · intro c hc
    cases hv : value.toList with
    | nil =>
      rw [hv] at hc
      cases hc
    | cons d cs =>
      rw [hv] at hc hmatch
      simp only [identifierMatch, Bool.and_eq_true, List.all_eq_true] at hmatch
      rcases List.mem_cons.mp hc with rfl | hc
      · simp [isIdentifierChar, hmatch.1]
      · exact hmatch.2 c hc
  · intro hnil
    rw [hnil] at hmatch
    cases hmatch

theorem ascii_of_identifier {value : String} (h : ∀ c ∈ value.toList, isIdentifierChar c = true) :
    Ascii value := fun c hc => utf8Size_of_isIdentifierChar (h c hc)

theorem no_nul_of_identifier {value : String} (h : ∀ c ∈ value.toList, isIdentifierChar c = true) :
    value.toList.contains '\x00' = false := by
  rw [List.contains_eq_mem, decide_eq_false_iff_not]
  intro hc
  exact absurd (h _ hc) (by decide)

theorem quote_of_identifier {name : DbName} (h : ∀ c ∈ name.toList, isIdentifierChar c = true) :
    quote_identifier name = .pure () := by
  rw [quote_identifier, no_nul_of_identifier h]
  rfl

theorem suffix_chars {value field_name : String}
    (h : temp_db_suffix_must_be_safe value field_name = .ok value) :
    (∀ c ∈ value.toList, isIdentifierChar c = true) ∧ value.toList ≠ [] := by
  unfold temp_db_suffix_must_be_safe at h
  by_cases hv : value = ""
  · simp [hv] at h
  rw [if_neg hv] at h
  obtain ⟨x, hx, -⟩ := bind_eq_ok.mp h
  have hxv : x = "x" ++ value := by
    unfold validate_identifier at hx
    split at hx
    · cases hx
    · exact (Except.ok.inj hx).symm
  rw [hxv] at hx
  obtain ⟨hchars, -, -⟩ := validate_identifier_ok hx
  refine ⟨?_, ?_⟩
  · intro c hc
    refine hchars c ?_
    rw [String.toList_append]
    exact List.mem_append_right _ hc
  · intro hnil
    exact hv (String.toList_inj.mp hnil)

theorem suffix_ok {value field_name : String}
    (h : temp_db_suffix_must_be_safe value field_name = .ok value) :
    Ascii value ∧ value.toList ≠ [] :=
  ⟨ascii_of_identifier (suffix_chars h).1, (suffix_chars h).2⟩

/-! ## The names of an environment -/

def OLD_SWAP : String := "__old_swap"

variable (cfg : OdooCtlConfig)

/-- What a name of its own is made of: nothing, the temporary suffix or the set-aside one. -/
def endings : List String := ["", cfg.temp_db_suffix, OLD_SWAP]

/-- The live, temporary and set-aside names, as the server spells them. -/
def names (e : EnvironmentConfig) : List DbName :=
  [live e.db_name, serverName (temp_name cfg.toConfigFields e), copy e.db_name]

/-- The names of two environments, and those of one, are pairwise distinct. -/
structure Separate : Prop where
  own : ∀ p ∈ cfg.environments, (names cfg p.2).Nodup
  others : ∀ p ∈ cfg.environments, ∀ q ∈ cfg.environments, p ≠ q →
    ∀ m ∈ names cfg p.2, ∀ n ∈ names cfg q.2, m ≠ n

/-- What is left of an ending behind a name of `n` characters. -/
def shownOf (n : ℕ) (ending : String) : List Char := ending.toList.take (63 - n)

/-- Every name leaves room to tell its endings apart, and no name is another one with
something that its endings could be taken for. -/
structure Fits : Prop where
  short : ∀ p ∈ cfg.environments, p.2.db_name.toList.length ≤ 62
  marked : ∀ p ∈ cfg.environments,
    shownOf p.2.db_name.toList.length cfg.temp_db_suffix ≠
      shownOf p.2.db_name.toList.length OLD_SWAP
  unclaimed : ∀ p ∈ cfg.environments, ∀ q ∈ cfg.environments,
    q.2.db_name ≠ p.2.db_name ++ OLD_SWAP
  extended : ∀ p ∈ cfg.environments, ∀ q ∈ cfg.environments, ∀ more, more ≠ "" →
    q.2.db_name = p.2.db_name ++ more →
    ∀ x ∈ [cfg.temp_db_suffix, OLD_SWAP], ∀ y ∈ [cfg.temp_db_suffix, OLD_SWAP],
      shownOf p.2.db_name.toList.length x ≠ shownOf p.2.db_name.toList.length (more ++ y)

/-! ## Where the names are separate -/

variable {cfg} {p q : String × EnvironmentConfig}

theorem take_append_of_le {a b : List Char} {n : ℕ} (h : a.length ≤ n) :
    (a ++ b).take n = a ++ b.take (n - a.length) := by
  rw [List.take_append, List.take_of_length_le h]

/-- Two names that are cut to the same text: one continues the other, and what follows it
shows the same. -/
theorem take_eq_take {a b x y : List Char} (ha : a.length ≤ b.length) (hb : b.length ≤ 63)
    (h : (a ++ x).take 63 = (b ++ y).take 63) :
    ∃ more, b = a ++ more ∧ x.take (63 - a.length) = (more ++ y).take (63 - a.length) := by
  rw [take_append_of_le (by omega), take_append_of_le hb] at h
  have hpre : a <+: b := by
    have ha' : a <+: b ++ y.take (63 - b.length) := by
      rw [← h]
      exact List.prefix_append a _
    exact List.prefix_of_prefix_length_le ha' (List.prefix_append b _) ha
  obtain ⟨more, rfl⟩ := hpre
  refine ⟨more, rfl, ?_⟩
  rw [List.append_assoc] at h
  have hrest := List.append_cancel_left h
  have hmore : more.length ≤ 63 - a.length := by
    rw [List.length_append] at hb
    omega
  rw [hrest, take_append_of_le hmore, List.length_append, Nat.sub_add_eq]

theorem db_name_chars (e : EnvironmentConfig) : ∀ c ∈ e.db_name.toList, isIdentifierChar c = true :=
  (validate_identifier_ok e.db_name_safe).1

theorem ascii_db_name (e : EnvironmentConfig) : Ascii e.db_name :=
  ascii_of_identifier (db_name_chars e)

theorem ascii_of_mem_endings {x : String} (hx : x ∈ endings cfg) : Ascii x := by
  simp only [endings, List.mem_cons, List.not_mem_nil, or_false] at hx
  rcases hx with rfl | rfl | rfl
  · intro c hc
    cases hc
  · exact (suffix_ok cfg.suffix_safe).1
  · have hall : OLD_SWAP.toList.all (fun c => c.utf8Size == 1) = true := by decide +kernel
    intro c hc
    simpa using List.all_eq_true.mp hall c hc

/-- An environment's name with an ending, as the server spells it. -/
def spelled (e : EnvironmentConfig) (x : String) : DbName := serverName (e.db_name ++ x)

theorem names_eq (e : EnvironmentConfig) : names cfg e = (endings cfg).map (spelled e) := by
  simp [names, endings, spelled, live, temp_name, copy, aside_name, OLD_SWAP]

theorem spelled_eq {e f : EnvironmentConfig} {x y : String} (hx : x ∈ endings cfg)
    (hy : y ∈ endings cfg) :
    spelled e x = spelled f y ↔
      (e.db_name.toList ++ x.toList).take 63 = (f.db_name.toList ++ y.toList).take 63 := by
  have he := (ascii_db_name e).append (ascii_of_mem_endings hx)
  have hf := (ascii_db_name f).append (ascii_of_mem_endings hy)
  rw [spelled, spelled, serverName_of_ascii he, serverName_of_ascii hf, String.ofList_inj,
    String.toList_append, String.toList_append]

theorem quote_ending {e : EnvironmentConfig} {x : String} (hx : x ∈ endings cfg) :
    quote_identifier (e.db_name ++ x) = .pure () := by
  refine quote_of_identifier fun c hc => ?_
  rw [String.toList_append] at hc
  rcases List.mem_append.mp hc with hc | hc
  · exact db_name_chars e c hc
  simp only [endings, List.mem_cons, List.not_mem_nil, or_false] at hx
  rcases hx with rfl | rfl | rfl
  · cases hc
  · exact (suffix_chars cfg.suffix_safe).1 c hc
  · have hall : OLD_SWAP.toList.all isIdentifierChar = true := by decide
    exact List.all_eq_true.mp hall c hc

theorem empty_mem_endings : "" ∈ endings cfg := by simp [endings]

theorem suffix_mem_endings : cfg.temp_db_suffix ∈ endings cfg := by simp [endings]

theorem old_swap_mem_endings : OLD_SWAP ∈ endings cfg := by simp [endings]

theorem toList_ne_nil_of_marked {x : String} (hx : x ∈ [cfg.temp_db_suffix, OLD_SWAP]) :
    x.toList ≠ [] := by
  simp only [List.mem_cons, List.not_mem_nil, or_false] at hx
  rcases hx with rfl | rfl
  · exact (suffix_ok cfg.suffix_safe).2
  · decide

theorem marked_mem_endings {x : String} (hx : x ∈ [cfg.temp_db_suffix, OLD_SWAP]) :
    x ∈ endings cfg := List.mem_cons_of_mem _ hx

/-- An ending that is not empty shows behind a name that leaves room for it. -/
theorem live_ne_marked {e : EnvironmentConfig} {x : String}
    (hx : x ∈ [cfg.temp_db_suffix, OLD_SWAP]) :
    spelled e "" ≠ spelled e x ↔ e.db_name.toList.length ≤ 62 := by
  rw [ne_eq, spelled_eq empty_mem_endings (marked_mem_endings hx)]
  have hne := List.length_pos_of_ne_nil (toList_ne_nil_of_marked hx)
  constructor
  · intro h
    by_contra hlong
    refine h ?_
    have hlen : 63 ≤ e.db_name.toList.length := by omega
    rw [List.take_append_of_le_length hlen, List.take_append_of_le_length hlen]
  · intro hlen h
    have hlength := congrArg List.length h
    have hempty : "".toList.length = 0 := rfl
    simp only [List.length_take, List.length_append, hempty] at hlength
    omega

theorem temp_ne_aside {e : EnvironmentConfig} (hlen : e.db_name.toList.length ≤ 63) :
    spelled e cfg.temp_db_suffix ≠ spelled e OLD_SWAP ↔
      shownOf e.db_name.toList.length cfg.temp_db_suffix ≠
        shownOf e.db_name.toList.length OLD_SWAP := by
  rw [ne_eq, spelled_eq suffix_mem_endings old_swap_mem_endings, take_append_of_le hlen,
    take_append_of_le hlen, List.append_cancel_left_eq]
  rfl

theorem own_names_iff {e : EnvironmentConfig} :
    (names cfg e).Nodup ↔ e.db_name.toList.length ≤ 62 ∧
      shownOf e.db_name.toList.length cfg.temp_db_suffix ≠
        shownOf e.db_name.toList.length OLD_SWAP := by
  have hs : cfg.temp_db_suffix ∈ [cfg.temp_db_suffix, OLD_SWAP] := by simp
  have ho : OLD_SWAP ∈ [cfg.temp_db_suffix, OLD_SWAP] := by simp
  rw [names_eq]
  simp only [endings, List.map_cons, List.map_nil, List.nodup_cons, List.mem_cons,
    List.not_mem_nil, or_false, not_or, not_false_eq_true, List.nodup_nil, and_true]
  constructor
  · rintro ⟨⟨hlive, -⟩, htemp⟩
    have hlen := (live_ne_marked hs).mp hlive
    exact ⟨hlen, (temp_ne_aside (by omega)).mp htemp⟩
  · rintro ⟨hlen, hmarked⟩
    exact ⟨⟨(live_ne_marked hs).mpr hlen, (live_ne_marked ho).mpr hlen⟩,
      (temp_ne_aside (by omega)).mpr hmarked⟩

theorem mem_names {e : EnvironmentConfig} {n : DbName} :
    n ∈ names cfg e ↔ ∃ x ∈ endings cfg, spelled e x = n := by
  rw [names_eq, List.mem_map]

theorem Separate.spelled_ne (h : Separate cfg) (hp : p ∈ cfg.environments)
    (hq : q ∈ cfg.environments) (hne : p ≠ q) {x y : String} (hx : x ∈ endings cfg)
    (hy : y ∈ endings cfg) : spelled p.2 x ≠ spelled q.2 y :=
  h.others p hp q hq hne _ (mem_names.mpr ⟨x, hx, rfl⟩) _ (mem_names.mpr ⟨y, hy, rfl⟩)

theorem ne_of_extended {more : String} (hmore : more ≠ "")
    (hdb : q.2.db_name = p.2.db_name ++ more) : p ≠ q := by
  rintro rfl
  have hlen := congrArg (fun s => s.toList.length) hdb
  simp only [String.toList_append, List.length_append] at hlen
  have hpos : more.toList ≠ [] := fun h => hmore (String.toList_inj.mp h)
  have := List.length_pos_of_ne_nil hpos
  omega

theorem Separate.fits (h : Separate cfg) : Fits cfg := by
  have hshort : ∀ p ∈ cfg.environments, p.2.db_name.toList.length ≤ 62 := fun p hp =>
    (own_names_iff.mp (h.own p hp)).1
  constructor
  · exact hshort
  · exact fun p hp => (own_names_iff.mp (h.own p hp)).2
  · intro p hp q hq hdb
    refine h.spelled_ne hp hq (ne_of_extended (by decide) hdb) old_swap_mem_endings
      empty_mem_endings ?_
    rw [spelled, spelled, hdb, String.append_empty]
  · intro p hp q hq more hmore hdb x hx y hy he
    refine h.spelled_ne hp hq (ne_of_extended hmore hdb) (marked_mem_endings hx)
      (marked_mem_endings hy) ?_
    rw [spelled_eq (marked_mem_endings hx) (marked_mem_endings hy), hdb, String.toList_append,
      List.append_assoc, take_append_of_le (by have := hshort p hp; omega),
      take_append_of_le (by have := hshort p hp; omega), ← String.toList_append]
    exact congrArg _ he

/-- A live name is no marked name of another environment, cut or not. -/
theorem Fits.live_ne (h : Fits cfg) (hp : p ∈ cfg.environments) (hq : q ∈ cfg.environments)
    (hne : p ≠ q) {x : String} (hx : x ∈ [cfg.temp_db_suffix, OLD_SWAP]) :
    spelled p.2 "" ≠ spelled q.2 x := by
  rw [ne_eq, spelled_eq empty_mem_endings (marked_mem_endings hx)]
  have hempty : "".toList = ([] : List Char) := rfl
  have hlen := h.short p hp
  rw [hempty, List.append_nil, List.take_of_length_le (by omega)]
  intro he
  have hlength := congrArg List.length he
  rw [List.length_take] at hlength
  rw [List.take_of_length_le (by omega), ← String.toList_append, String.toList_inj] at he
  simp only [List.mem_cons, List.not_mem_nil, or_false] at hx
  rcases hx with rfl | rfl
  · refine cfg.temp_name_ne hq hp ?_ he.symm
    intro hname
    exact hne (Prod.ext hname.symm (Option.some.inj ((cfg.find_of_mem hp).symm.trans
      (hname ▸ cfg.find_of_mem hq))))
  · exact h.unclaimed q hq p hp he

theorem Fits.marked_ne (h : Fits cfg) (hp : p ∈ cfg.environments) (hq : q ∈ cfg.environments)
    (hne : p ≠ q) {x y : String} (hx : x ∈ [cfg.temp_db_suffix, OLD_SWAP])
    (hy : y ∈ [cfg.temp_db_suffix, OLD_SWAP])
    (hle : p.2.db_name.toList.length ≤ q.2.db_name.toList.length) :
    spelled p.2 x ≠ spelled q.2 y := by
  rw [ne_eq, spelled_eq (marked_mem_endings hx) (marked_mem_endings hy)]
  intro he
  have hlen := h.short q hq
  obtain ⟨more, hmore, hshown⟩ := take_eq_take hle (by omega) he
  have hdb : q.2.db_name = p.2.db_name ++ String.ofList more := by
    rw [← String.toList_inj, String.toList_append, String.toList_ofList, hmore]
  refine h.extended p hp q hq (String.ofList more) ?_ hdb x hx y hy ?_
  · intro hnil
    rw [hnil, String.append_empty] at hdb
    exact cfg.db_name_ne hp hq hne hdb.symm
  · rw [shownOf, shownOf, String.toList_append, String.toList_ofList]
    exact hshown

theorem Fits.spelled_ne (h : Fits cfg) (hp : p ∈ cfg.environments) (hq : q ∈ cfg.environments)
    (hne : p ≠ q) {x y : String} (hx : x ∈ endings cfg) (hy : y ∈ endings cfg) :
    spelled p.2 x ≠ spelled q.2 y := by
  have hlive : spelled p.2 "" ≠ spelled q.2 "" := by
    have hnil : "" ∈ endings cfg := empty_mem_endings
    rw [ne_eq, spelled_eq hnil hnil]
    have hempty : "".toList = ([] : List Char) := rfl
    have hlp := h.short p hp
    have hlq := h.short q hq
    rw [hempty, List.append_nil, List.append_nil, List.take_of_length_le (by omega),
      List.take_of_length_le (by omega), String.toList_inj]
    exact cfg.db_name_ne hp hq hne
  rcases List.mem_cons.mp hx with rfl | hx
  · rcases List.mem_cons.mp hy with rfl | hy
    · exact hlive
    · exact h.live_ne hp hq hne hy
  · rcases List.mem_cons.mp hy with rfl | hy
    · exact Ne.symm (h.live_ne hq hp (Ne.symm hne) hx)
    · by_cases hle : p.2.db_name.toList.length ≤ q.2.db_name.toList.length
      · exact h.marked_ne hp hq hne hx hy hle
      · exact Ne.symm (h.marked_ne hq hp (Ne.symm hne) hy hx (by omega))

theorem separate_iff : Separate cfg ↔ Fits cfg := by
  constructor
  · exact Separate.fits
  · intro h
    constructor
    · intro p hp
      exact own_names_iff.mpr ⟨h.short p hp, h.marked p hp⟩
    · intro p hp q hq hne m hm n hn
      obtain ⟨x, hx, rfl⟩ := mem_names.mp hm
      obtain ⟨y, hy, rfl⟩ := mem_names.mp hn
      exact h.spelled_ne hp hq hne hx hy

end DatabaseNames
