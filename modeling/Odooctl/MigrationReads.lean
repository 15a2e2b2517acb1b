import Odooctl.MigrationWorld

/-!
# What a migration has read

The directories listed and the objects fetched by an operation of a migration, and what
follows of the target and the source once their checks have passed.
-/
namespace MigrationReads

open EffectPrograms FilestoreManifest ObjectFilestore FilestoreMigration MigrationWorld

variable {lib : Library} {ctx : ServiceContext} {W : World Migration State}
  {G : Migration.Op → State → Prop} {s t u : State} {α β : Type}

/-! ## Rules -/

section Rules

variable {Q : Except String α → State → Prop}

theorem wp_send {c : LocalCall} {Q : Except String c.Answer → State → Prop} :
    wp W G (send c) Q s ↔ G (.inl c) s ∧ ∀ r t, W (.inl c) s r t → Q r t :=
  wp_onLeft.trans (wp_perform (F := Local))

theorem wp_onStore {p : StoreM α} : wp W G (onStore p) Q s ↔
    wp W.onRight (fun o u => G (.inr o) u) p (fun r u => Q (r.mapError failure_text) u) s :=
  wp_onRight.trans wp_mapError

theorem wp_reject_if {c : Prop} [Decidable c] {message : String} {f : Unit → MigrationM α}
    (herr : c → Q (.error message) s) (hok : ¬ c → wp W G (f ()) Q s) :
    wp W G (reject_if c message >>= f) Q s := by
  by_cases hc : c
  · simp only [reject_if, if_pos hc]
    exact herr hc
  · simp only [reject_if, if_neg hc]
    exact hok hc

theorem wp_ofExcept_bind {r : Except String β} {f : β → MigrationM α}
    (herr : ∀ e, Q (.error e) s) (hok : ∀ b, r = .ok b → wp W G (f b) Q s) :
    wp W G (.ofExcept r >>= f) Q s := by
  cases r with
  | error e => exact herr e
  | ok b => exact hok b rfl

/-- A sequence whose failures need no argument. -/
theorem wp_seq {p : MigrationM β} {f : β → MigrationM α} {R : Except String β → State → Prop}
    (h : wp W G p R s) (herr : ∀ e t, R (.error e) t → Q (.error e) t)
    (hok : ∀ b t, R (.ok b) t → wp W G (f b) Q t) : wp W G (p >>= f) Q s := by
  apply wp_bind'.mpr
  apply wp_post h
  intro r t hr
  cases r with
  | error e => exact herr e t hr
  | ok b => exact hok b t hr

end Rules

/-! ## Reading -/

/-- The operations that change nothing. -/
def Look : Migration.Op → Prop
  | .inl (.existing_manifest _) | .inl .now_utc | .inl (.is_real_dir _) | .inl (.materialize _)
  | .inl (.walk _) | .inr (.head_object _) | .inr (.get_object _) => True
  | _ => False

/-- More has been read. -/
structure More (s t : State) : Prop where
  listed : s.listed ⊆ t.listed
  headed : s.headed ⊆ t.headed
  fetched : s.fetched ⊆ t.fetched

/-- More has been read, and the manifests are the same. -/
structure Reads (s t : State) : Prop extends More s t where
  manifests : t.manifests = s.manifests
  said_absent : t.said_absent = s.said_absent

theorem More.refl (s : State) : More s s := ⟨fun _ h => h, fun _ h => h, fun _ h => h⟩

theorem More.trans (h : More s t) (k : More t u) : More s u where
  listed := fun _ hx => k.listed (h.listed hx)
  headed := fun _ hx => k.headed (h.headed hx)
  fetched := fun _ hx => k.fetched (h.fetched hx)

theorem Reads.refl (s : State) : Reads s s := ⟨More.refl s, rfl, rfl⟩

theorem Reads.trans (h : Reads s t) (k : Reads t u) : Reads s u where
  toMore := h.toMore.trans k.toMore
  manifests := k.manifests.trans h.manifests
  said_absent := k.said_absent.trans h.said_absent

/-- Others change what is at a path and what is in the object store, and no manifest. -/
structure Elsewhere (s t : State) : Prop where
  manifests : t.manifests = s.manifests
  said_absent : t.said_absent = s.said_absent
  listed : t.listed = s.listed
  headed : t.headed = s.headed
  fetched : t.fetched = s.fetched

theorem Elsewhere.reads (h : Elsewhere s t) : Reads s t where
  manifests := h.manifests
  said_absent := h.said_absent
  listed := h.listed ▸ fun _ hx => hx
  headed := h.headed ▸ fun _ hx => hx
  fetched := h.fetched ▸ fun _ hx => hx

/-- What is read is noted. -/
structure Noting (W : World Migration State) : Prop where
  grows : ∀ {o s r t}, Look o → W o s r t → Reads s t
  head : ∀ {key s info t}, W (.inr (.head_object key)) s (.ok info) t → (key, info) ∈ t.headed
  get : ∀ {key s body t}, W (.inr (.get_object key)) s (.ok body) t → (key, body) ∈ t.fetched
  walk : ∀ {path s tree t}, W (.inl (.walk (.directory path))) s (.ok tree) t →
    (.path path, tree) ∈ t.listed
  extracted : ∀ {copy s tree t}, W (.inl (.walk (.extracted copy))) s (.ok tree) t → tree = copy
  materialize : ∀ {v s tree t}, W (.inl (.materialize v)) s (.ok tree) t →
    (.volume v, tree) ∈ t.listed
  load : ∀ {id s r t}, W (.inl (.read_manifest id)) s r t →
    Reads s.afresh t ∧ ∀ m, r = .ok m → s.manifests id = some m
  write : ∀ {m s r t}, W (.inl (.write_manifest m)) s r t →
    Reads (s.write m) t ∨ Reads s t ∧ ∃ e, r = .error e
  test : ∀ {src s found t}, W (.inl (.source_exists src)) s (.ok found) t →
    Reads (s.tested found) t
  remove : ∀ {src s r t}, W (.inl (.remove_source src)) s r t → t.manifests = s.manifests

theorem world_grows {o : Migration.Op} {r : Migration.Reply o} (h : Look o)
    (hw : world lib o s r t) : Reads s t := by
  have hgrown : ∀ {t : State}, t.manifests = s.manifests → t.said_absent = s.said_absent →
      s.listed ⊆ t.listed → s.headed ⊆ t.headed → s.fetched ⊆ t.fetched → Reads s t :=
    fun h₁ h₂ h₃ h₄ h₅ => ⟨⟨h₃, h₄, h₅⟩, h₁, h₂⟩
  rcases o with o | o
  · change LocalCall at o
    cases o with
    | existing_manifest id => exact hw.1 ▸ Reads.refl s
    | now_utc =>
      obtain rfl : t = s := hw
      exact Reads.refl t
    | is_real_dir path => exact hw.1 ▸ Reads.refl s
    | materialize v =>
      rcases hw with ⟨-, rfl⟩ | ⟨tree, -, -, rfl⟩
      · exact Reads.refl t
      · exact hgrown rfl rfl (List.subset_cons_self _ _) (fun _ h => h) (fun _ h => h)
    | walk root =>
      cases root with
      | directory path =>
        rcases hw with ⟨-, rfl⟩ | ⟨tree, -, -, rfl⟩
        · exact Reads.refl t
        · exact hgrown rfl rfl (List.subset_cons_self _ _) (fun _ h => h) (fun _ h => h)
      | extracted tree => exact hw.1 ▸ Reads.refl s
    | read_manifest id | write_manifest m | token_hex | lexists path | source_exists src
    | read_file root path | make_dir path | copy_file root path p | replace p d
    | remove_partial_copy path | remove_source src => exact h.elim
  · change StoreCall at o
    cases o with
    | head_object key =>
      rcases hw with ⟨o, -, -, rfl⟩ | ⟨e, -, rfl, -⟩
      · exact hgrown rfl rfl (fun _ h => h) (List.subset_cons_self _ _) (fun _ h => h)
      · exact Reads.refl t
    | get_object key =>
      rcases hw with ⟨o, -, -, rfl⟩ | ⟨-, rfl⟩
      · exact hgrown rfl rfl (fun _ h => h) (fun _ h => h) (List.subset_cons_self _ _)
      · exact Reads.refl t
    | put_object key body sha256 condition => exact h.elim
    | delete_object key => exact h.elim

theorem world_notes : Noting (world lib) where
  grows := world_grows
  head := by
    intro key s info t hw
    rcases hw with ⟨o, -, hinfo, rfl⟩ | ⟨e, he, -⟩
    · rw [Except.ok.inj hinfo]
      exact List.mem_cons_self
    · cases he
  get := by
    intro key s body t hw
    rcases hw with ⟨o, -, hbody, rfl⟩ | ⟨⟨e, he⟩, -⟩
    · rw [Except.ok.inj hbody]
      exact List.mem_cons_self
    · cases he
  walk := by
    intro path s tree t hw
    rcases hw with ⟨⟨e, he⟩, -⟩ | ⟨tree', htree, -, rfl⟩
    · cases he
    · rw [Except.ok.inj htree]
      exact List.mem_cons_self
  extracted := fun hw => hw.2 _ rfl
  materialize := by
    intro v s tree t hw
    rcases hw with ⟨⟨e, he⟩, -⟩ | ⟨tree', htree, -, rfl⟩
    · cases he
    · rw [Except.ok.inj htree]
      exact List.mem_cons_self
  load := fun hw => ⟨hw.1 ▸ Reads.refl _, hw.2⟩
  write := by
    intro m s r t hw
    rcases hw with rfl | ⟨rfl, he⟩
    · exact .inl (Reads.refl _)
    · exact .inr ⟨Reads.refl _, he⟩
  test := by
    intro src s found t hw
    rcases hw with ⟨⟨e, he⟩, -⟩ | ⟨found', hfound, rfl, -⟩
    · cases he
    · rw [Except.ok.inj hfound]
      exact Reads.refl _
  remove := by
    intro src s r t ⟨after, _, ht, _⟩
    rw [ht]
    rfl

/-- Others do not unmake the notes. -/
theorem Noting.shared (h : Noting W) : Noting (W.under Elsewhere) where
  grows := by
    intro o s r t ho ⟨u, hw, he⟩
    exact (h.grows ho hw).trans he.reads
  head := by
    intro key s info t ⟨u, hw, he⟩
    exact he.reads.headed (h.head hw)
  get := by
    intro key s body t ⟨u, hw, he⟩
    exact he.reads.fetched (h.get hw)
  walk := by
    intro path s tree t ⟨u, hw, he⟩
    exact he.reads.listed (h.walk hw)
  extracted := by
    intro copy s tree t ⟨u, hw, he⟩
    exact h.extracted hw
  materialize := by
    intro v s tree t ⟨u, hw, he⟩
    exact he.reads.listed (h.materialize hw)
  load := by
    intro id s r t ⟨u, hw, he⟩
    exact ⟨(h.load hw).1.trans he.reads, (h.load hw).2⟩
  write := by
    intro m s r t ⟨u, hw, he⟩
    rcases h.write hw with hu | ⟨hu, hr⟩
    · exact .inl (hu.trans he.reads)
    · exact .inr ⟨hu.trans he.reads, hr⟩
  test := by
    intro src s found t ⟨u, hw, he⟩
    exact (h.test hw).trans he.reads
  remove := by
    intro src s r t ⟨u, hw, he⟩
    exact he.manifests.trans (h.remove hw)

/-- What looking establishes, with what had been read before. -/
theorem wp_looks (hW : Noting W) {p : MigrationM α} {Q : Except String α → State → Prop}
    (h : wp W (fun o _ => Look o) p Q s) :
    wp W (fun o _ => Look o) p (fun r t => Q r t ∧ Reads s t) s := by
  apply wp_mono (wp_stable h (Reads.refl s) ?_) (fun _ _ h => h.1) (fun _ _ h => h)
  intro o u r t ho hu hw
  exact hu.trans (hW.grows ho hw)

theorem wp_looks_store (hW : Noting W) {p : StoreM α} {Q : Except StoreFailure α → State → Prop}
    (h : wp W.onRight (fun o _ => Look (.inr o)) p Q s) :
    wp W.onRight (fun o _ => Look (.inr o)) p (fun r t => Q r t ∧ Reads s t) s := by
  apply wp_mono (wp_stable h (Reads.refl s) ?_) (fun _ _ h => h.1) (fun _ _ h => h)
  intro o u r t ho hu hw
  exact hu.trans (hW.grows (o := .inr o) ho hw)

/-! ## Objects -/

/-- The body under a key was read, and agreed with the metadata. -/
structure ReadBack (sha256 : Body → String) (length : Body → ℕ) (t : State) (key : Key)
    (body : Body) (most : Option ℕ) : Prop where
  fetched : (key, body) ∈ t.fetched
  bounded : ∀ m ∈ most, length body ≤ m
  digest : is_sha256 (sha256 body) = true
  headed : ∃ info, (key, info) ∈ t.headed ∧ info.size = length body ∧
    info.sha256 = some (sha256 body)

theorem ReadBack.later {sha256 : Body → String} {length : Body → ℕ} {key : Key} {body : Body}
    {most : Option ℕ} (h : ReadBack sha256 length s key body most) (hr : More s t) :
    ReadBack sha256 length t key body most := by
  obtain ⟨info, hinfo, hsize, hdigest⟩ := h.headed
  exact ⟨hr.fetched h.fetched, h.bounded, h.digest, info, hr.headed hinfo, hsize, hdigest⟩

/-- Every entry, and the manifest itself, were read in the object store. -/
structure RemoteRead (sha256 : Body → String) (length : Body → ℕ) (t : State)
    (m : MigrationFields) : Prop where
  marker : ReadBack sha256 length t (.migration m.migration_id) (.manifest m.document)
    (some MAX_FILESTORE_MANIFEST_BYTES)
  entries : ∀ e ∈ m.entries, ∃ body, ReadBack sha256 length t (.object e.sha256) body none ∧
    sha256 body = e.sha256 ∧ length body = e.size

theorem RemoteRead.later {sha256 : Body → String} {length : Body → ℕ} {m : MigrationFields}
    (h : RemoteRead sha256 length s m) (hr : More s t) : RemoteRead sha256 length t m := by
  constructor
  · exact h.marker.later hr
  · intro e he
    obtain ⟨body, hbody, hsame⟩ := h.entries e he
    exact ⟨body, hbody.later hr, hsame⟩

section Objects

variable {a : ObjectFilestoreAdapter}

theorem wp_refuse_if {V : World Store State} {I : StoreCall → State → Prop} {c : Prop} [Decidable c]
    {e : StoreFailure} {f : Unit → StoreM α} {Q : Except StoreFailure α → State → Prop}
    (herr : c → Q (.error e) s) (hok : ¬ c → wp V I (f ()) Q s) :
    wp V I (refuse_if c e >>= f) Q s := by
  by_cases hc : c
  · simp only [refuse_if, if_pos hc]
    exact herr hc
  · simp only [refuse_if, if_neg hc]
    exact hok hc

theorem wp_read_verified_object (hW : Noting W) {key : Key} {expected : Option String}
    {most : Option ℕ} :
    wp W.onRight (fun o _ => Look (.inr o)) (read_verified_object a key expected most)
      (fun r t => ∀ read, r = .ok read → ReadBack a.sha256 a.length t key read.2 most ∧
        read.1.size = a.length read.2 ∧ ∀ e ∈ expected, a.sha256 read.2 = e.toLower) s := by
  apply wp_bind'.mpr
  apply wp_bind'.mpr
  apply wp_perform.mpr
  refine ⟨trivial, ?_⟩
  intro r t hhead
  cases r with
  | error e => exact fun _ h => nomatch h
  | ok info =>
  have hinfo := hW.head hhead
  apply wp_refuse_if (fun _ _ h => nomatch h)
  intro hdigest
  apply wp_refuse_if (fun _ _ h => nomatch h)
  intro hexpected
  apply wp_refuse_if (fun _ _ h => nomatch h)
  intro _
  apply wp_bind'.mpr
  apply wp_perform.mpr
  refine ⟨trivial, ?_⟩
  intro r u hget
  cases r with
  | error e => exact fun _ h => nomatch h
  | ok body =>
  apply wp_refuse_if (fun _ _ h => nomatch h)
  intro hmost
  apply wp_refuse_if (fun _ _ h => nomatch h)
  intro hcontent read hread
  obtain rfl := Except.ok.inj hread
  have hgrown : Reads t u := hW.grows (o := .inr (.get_object key)) trivial hget
  simp only [not_or, not_not] at hcontent
  obtain ⟨hsize, hsha⟩ := hcontent
  have hmetadata : info.sha256 = some (a.sha256 body) := by
    cases expected with
    | none => exact hsha.symm
    | some e =>
      have hinfo : info.sha256 = some e.toLower := by simpa using hexpected
      rw [hinfo, hsha]
      rfl
  have hexpected' : ∀ e ∈ expected, a.sha256 body = e.toLower := by
    intro e he
    obtain rfl := Option.mem_def.mp he
    exact Option.some.inj hsha
  refine ⟨⟨hW.get hget, ?_, ?_, info, hgrown.headed hinfo, hsize.symm, hmetadata⟩, hsize.symm,
    hexpected'⟩
  · intro m hm
    by_contra hlong
    exact hmost ⟨m, hm, Nat.lt_of_not_le hlong⟩
  · rw [hmetadata] at hdigest
    simpa using hdigest

theorem entry_sha256 {manifest : MigrationManifest lib} {e : FilestoreObjectEntry}
    (he : e ∈ manifest.entries) : is_sha256 e.sha256 = true := by
  have hfields := manifest.fields_sound
  simp only [MigrationFields.fieldFaults, List.append_eq_nil_iff, List.flatMap_eq_nil_iff] at hfields
  have hentry := hfields.1.2 e he
  by_contra hbad
  simp only [FilestoreObjectEntry.faults, sha256Fault, if_neg hbad, List.reduceOption,
    List.filterMap_eq_nil_iff] at hentry
  exact Option.some_ne_none _ (hentry _ (List.mem_cons_of_mem _ List.mem_cons_self))

/-- The key of an entry is made of its own digest. -/
theorem wp_object_key {value : String} {f : Key → StoreM α} {V : World Store State}
    {I : StoreCall → State → Prop} {Q : Except StoreFailure α → State → Prop}
    (hvalue : is_sha256 value = true) (herr : ∀ e, Q (.error e) s)
    (hok : wp V I (f (.object value)) Q s) : wp V I (object_key a value >>= f) Q s := by
  have hlower : value.toLower = value := S3Objects.toLower_of_digest hvalue
  have hdigest : digest value = .ok value := by
    rw [digest, hlower, if_pos hvalue]
  simp only [object_key, hdigest, scoped_key, Prog.ofExcept, Prog.bind_eq, Prog.bind]
  by_cases hlong : 1024 < (a.key (.object value)).utf8ByteSize
  · rw [if_pos hlong]
    exact herr _
  · rw [if_neg hlong]
    exact hok

theorem wp_verify_entries (hW : Noting W) {entries : List FilestoreObjectEntry}
    (hdigests : ∀ e ∈ entries, is_sha256 e.sha256 = true) :
    wp W.onRight (fun o _ => Look (.inr o)) (verify_entries a entries)
      (fun r t => r = .ok () → ∀ e ∈ entries, ∃ body,
        ReadBack a.sha256 a.length t (.object e.sha256) body none ∧
          a.sha256 body = e.sha256 ∧ a.length body = e.size) s := by
  induction entries generalizing s with
  | nil => exact fun _ e he => nomatch he
  | cons entry entries ih =>
    have hentry := hdigests entry List.mem_cons_self
    apply wp_object_key hentry (fun _ h => nomatch h)
    apply wp_bind'.mpr
    apply wp_bind'.mpr
    apply wp_post (wp_read_verified_object hW)
    intro r t hread
    cases r with
    | error e => exact fun h => nomatch h
    | ok read =>
    obtain ⟨hback, hsize, hsha⟩ := hread read rfl
    have hsha : a.sha256 read.2 = entry.sha256 :=
      (hsha _ rfl).trans (S3Objects.toLower_of_digest hentry)
    apply wp_refuse_if (fun _ h => nomatch h)
    intro hsame
    apply wp_post (wp_looks_store hW (ih fun e he => hdigests e (List.mem_cons_of_mem _ he)))
    intro r u ⟨hrest, hgrown⟩ hok e he
    rcases List.mem_cons.mp he with rfl | he
    · exact ⟨read.2, hback.later hgrown.toMore, hsha, hsize.symm.trans (not_not.mp hsame)⟩
    · exact hrest hok e he

theorem wp_verify_inventory (hW : Noting W) {manifest : Manifest a}
    (hdigests : ∀ e ∈ manifest.entries, is_sha256 e.sha256 = true) :
    wp W.onRight (fun o _ => Look (.inr o)) (verify_inventory manifest)
      (fun r t => ∀ v, r = .ok v → RemoteRead a.sha256 a.length t manifest.toMigrationFields) s := by
  apply wp_refuse_if (fun _ _ h => by cases h)
  intro _
  have hkey : ∀ {f : Key → StoreM ObjectFilestoreVerification},
      (wp W.onRight (fun o _ => Look (.inr o)) (f (.migration manifest.migration_id))
        (fun r t => ∀ v, r = .ok v → RemoteRead a.sha256 a.length t manifest.toMigrationFields) s) →
      wp W.onRight (fun o _ => Look (.inr o)) (migration_manifest_key a manifest.migration_id >>= f)
        (fun r t => ∀ v, r = .ok v →
          RemoteRead a.sha256 a.length t manifest.toMigrationFields) s := by
    intro f hf
    simp only [migration_manifest_key, migration_id]
    split
    · simp only [scoped_key, Prog.ofExcept, Prog.bind_eq, Prog.bind]
      split
      · exact fun _ h => by cases h
      · exact hf
    · exact fun _ h => by cases h
  apply hkey
  apply wp_bind'.mpr
  apply wp_post (wp_read_verified_object hW)
  intro r t hread
  cases r with
  | error e => exact fun _ h => by cases h
  | ok read =>
  obtain ⟨hback, -, -⟩ := hread read rfl
  apply wp_refuse_if (fun _ _ h => by cases h)
  intro hdocument
  apply wp_bind'.mpr
  apply wp_post (wp_looks_store hW (wp_verify_entries hW hdigests))
  rintro r u ⟨hentries, hgrown⟩
  cases r with
  | error e => exact fun _ h => by cases h
  | ok done =>
    intro _ _
    rw [not_not.mp hdocument] at hback
    exact ⟨hback.later hgrown.toMore, hentries rfl⟩

end Objects

/-! ## Directories -/

/-- A tree that was found there has the inventory of the manifest. -/
def Matched (lib : Library) (t : State) (source : Source) (m : MigrationFields) : Prop :=
  ∃ tree, (source, tree) ∈ t.listed ∧ inventory_of lib tree = .ok (.of_manifest m)

/-- The target holds what the manifest says, byte for byte. -/
def TargetVerified (lib : Library) (t : State) (m : MigrationFields) : Prop :=
  if m.target_backend = .posix_object_mount then Matched lib t (.path m.target_location) m
  else RemoteRead lib.sha256 (body_length lib) t m

theorem Matched.later {source : Source} {m : MigrationFields} (h : Matched lib s source m)
    (hr : More s t) : Matched lib t source m := by
  obtain ⟨tree, htree, hinventory⟩ := h
  exact ⟨tree, hr.listed htree, hinventory⟩

theorem TargetVerified.later {m : MigrationFields} (h : TargetVerified lib s m) (hr : More s t) :
    TargetVerified lib t m := by
  unfold TargetVerified at h ⊢
  by_cases hposix : m.target_backend = .posix_object_mount
  · rw [if_pos hposix] at h ⊢
    exact h.later hr
  · rw [if_neg hposix] at h ⊢
    exact h.later hr

/-- Neither writes a manifest nor removes a source. -/
def Plain : Migration.Op → Prop
  | .inl (.write_manifest _) | .inl (.remove_source _) => False
  | _ => True

theorem Look.plain {o : Migration.Op} (h : Look o) : Plain o := by
  rcases o with o | o
  · cases o with
    | write_manifest m => exact h
    | remove_source src => exact h
    | _ => trivial
  · trivial

section Sequences

variable {Q : Except String α → State → Prop}

theorem wp_look_seq (hW : Noting W) (hG : ∀ o u, Plain o → G o u) {p : MigrationM β}
    {f : β → MigrationM α} {R : Except String β → State → Prop}
    (h : wp W (fun o _ => Look o) p R s) (herr : ∀ e t, Reads s t → Q (.error e) t)
    (hok : ∀ b t, R (.ok b) t → Reads s t → wp W G (f b) Q t) : wp W G (p >>= f) Q s := by
  apply wp_seq (wp_mono (wp_looks hW h) (fun o u ho => hG o u ho.plain) (fun _ _ h => h))
  · intro e t ht
    exact herr e t ht.2
  · intro b t ht
    exact hok b t ht.1 ht.2

/-- The tree is what was found at the root. -/
def Listed (t : State) : Root → Tree → Prop
  | .directory path, tree => (.path path, tree) ∈ t.listed
  | .extracted copy, tree => tree = copy

theorem Listed.later {root : Root} {tree : Tree} (h : Listed s root tree) (hr : More s t) :
    Listed t root tree := by
  cases root with
  | directory path => exact hr.listed h
  | extracted copy => exact h

theorem wp_require_real_dir {path label : String} :
    wp W (fun o _ => Look o) (require_real_dir path label) (fun _ _ => True) s := by
  apply wp_bind'.mpr
  apply wp_send.mpr
  refine ⟨trivial, ?_⟩
  intro r t _
  cases r with
  | error e => trivial
  | ok real =>
    change wp _ _ (reject_if _ _) _ _
    unfold reject_if
    split <;> trivial

theorem wp_scan_filestore (hW : Noting W) {root : Root} :
    wp W (fun o _ => Look o) (scan_filestore lib root)
      (fun r t => ∀ found, r = .ok found → ∃ tree, Listed t root tree ∧
        inventory_of lib tree = .ok found) s := by
  have hroot : wp W (fun o _ => Look o) (require_root root) (fun _ _ => True) s := by
    cases root with
    | directory path => exact wp_require_real_dir
    | extracted copy => trivial
  apply wp_seq hroot (fun _ _ _ _ h => nomatch h)
  intro _ t _
  apply wp_bind'.mpr
  apply wp_send.mpr
  refine ⟨trivial, ?_⟩
  intro r u hw
  cases r with
  | error e => exact fun _ h => nomatch h
  | ok tree =>
  apply wp_ofExcept.mpr
  intro found hfound
  refine ⟨tree, ?_, hfound⟩
  cases root with
  | directory path => exact hW.walk hw
  | extracted copy => exact hW.extracted hw

theorem wp_require_inventory (hW : Noting W) {root : Root} {manifest : MigrationManifest lib}
    {message : String} :
    wp W (fun o _ => Look o) (require_inventory root manifest message)
      (fun r t => r = .ok () → ∃ tree, Listed t root tree ∧
        inventory_of lib tree = .ok (.of_manifest manifest.toMigrationFields)) s := by
  apply wp_seq (wp_scan_filestore hW) (fun _ _ _ h => nomatch h)
  intro found t hfound
  obtain ⟨tree, hlisted, hinventory⟩ := hfound found rfl
  by_cases hsame : found = .of_manifest manifest.toMigrationFields
  · rw [reject_if, if_neg (not_not.mpr hsame)]
    exact fun _ => ⟨tree, hlisted, hsame ▸ hinventory⟩
  · rw [reject_if, if_pos hsame]
    exact fun h => nomatch h

/-- The root stands for the source: what is listed of it was found there. -/
def StandsFor (t : State) (root : Root) (source : Source) : Prop :=
  ∀ u tree, Reads t u → Listed u root tree → (source, tree) ∈ u.listed

theorem wp_materialized_source (hW : Noting W) {source : Source} :
    wp W (fun o _ => Look o) (materialized_source source)
      (fun r t => ∀ root, r = .ok root → StandsFor t root source) s := by
  cases source with
  | path text =>
    apply wp_seq wp_require_real_dir (fun _ _ _ _ h => nomatch h)
    intro _ t _ root hroot
    obtain rfl := Except.ok.inj hroot
    exact fun u tree _ h => h
  | volume v =>
    apply wp_bind'.mpr
    apply wp_send.mpr
    refine ⟨trivial, ?_⟩
    intro r t hw
    cases r with
    | error e => exact fun _ h => nomatch h
    | ok copy =>
      intro root hroot
      obtain rfl := Except.ok.inj hroot
      intro u tree hgrown hlisted
      obtain rfl : tree = copy := hlisted
      exact hgrown.listed (hW.materialize hw)

/-- A source is materialized and compared. -/
theorem wp_match_source (hW : Noting W) (hG : ∀ o u, Plain o → G o u) {source : Source}
    {manifest : MigrationManifest lib} {f : Unit → MigrationM α}
    (herr : ∀ e t, Reads s t → Q (.error e) t)
    (hok : ∀ t, Reads s t → Matched lib t source manifest.toMigrationFields → wp W G (f ()) Q t) :
    wp W G (materialized_source source >>= fun root =>
      assert_source_matches root manifest >>= f) Q s := by
  apply wp_look_seq hW hG (wp_materialized_source hW) herr
  intro root t hroot hst
  have hstands := hroot root rfl
  apply wp_look_seq hW hG (wp_require_inventory hW)
  · intro e u htu
    exact herr e u (hst.trans htu)
  · intro _ u hmatched htu
    obtain ⟨tree, hlisted, hinventory⟩ := hmatched rfl
    exact hok u (hst.trans htu) ⟨tree, hstands u tree htu hlisted, hinventory⟩

end Sequences

end MigrationReads
