import Odooctl.InterleavedPrograms
import Odooctl.S3Objects

/-!
# Archived objects are immutable

Any number of callers create objects in any order, with lost responses, while retention
deletes some. A caller succeeds only where the stored bytes are its own.
-/
namespace ImmutableObjects

open EffectPrograms InterleavedPrograms PythonText WalSegments S3Objects

/-- Objects are put with the digest of their bytes. -/
def Puts (a : WalS3Adapter) (B : Set Bytes) : S3.Op → Prop :=
  fun o => match (o : S3Call) with
  | .put_object _ body digest => body ∈ B ∧ digest = a.sha256 body
  | _ => True

/-- What the code relies on of SHA-256, for the bytes that occur. -/
structure Hashes (a : WalS3Adapter) (B : Set Bytes) : Prop where
  collision_free : ∀ x ∈ B, ∀ y ∈ B, a.sha256 x = a.sha256 y → x = y
  digests : ∀ x ∈ B, is_digest (a.sha256 x) = true

structure WellStored (a : WalS3Adapter) (B : Set Bytes) (s : Bucket) : Prop where
  occurs : ∀ k o, s.objects k = some o → o.body ∈ B
  hashed : ∀ k o, s.objects k = some o → o.digest = some (a.sha256 o.body)
  noted : ∀ k o, s.objects k = some o → s.ever k o.body

/-- What any request does to the objects: one that is not deleted stays as it is. -/
structure Grows (s t : Bucket) : Prop where
  deletions : ∀ k, s.deletions k ≤ t.deletions k
  ever : ∀ k x, s.ever k x → t.ever k x
  kept : ∀ k o, s.objects k = some o → t.deletions k = s.deletions k → t.objects k = some o

variable {a : WalS3Adapter} {B : Set Bytes} {s t u : Bucket} {key : Key} {body : Bytes}
  {α : Type}

theorem Grows.refl (s : Bucket) : Grows s s := ⟨fun _ => le_rfl, fun _ _ h => h, fun _ _ h _ => h⟩

theorem Grows.trans (h : Grows s t) (k : Grows t u) : Grows s u := by
  refine ⟨fun key => (h.deletions key).trans (k.deletions key),
    fun key x hx => k.ever key x (h.ever key x hx), fun key o ho heq => ?_⟩
  have hle := h.deletions key
  have hle' := k.deletions key
  exact k.kept key o (h.kept key o ho (by omega)) (by omega)

/-- Every request keeps objects that it does not delete. -/
theorem bucket_grows {o : S3Call} {r : o.Answer} (h : bucket o s r t) : Grows s t := by
  cases o with
  | put_object key body digest =>
    rcases h with ⟨habsent, rfl⟩ | ⟨rfl, -⟩
    · refine ⟨fun _ => le_rfl, fun _ _ hx => .inl hx, fun k o ho _ => ?_⟩
      have hne : k ≠ key := by
        rintro rfl
        rw [habsent] at ho
        cases ho
      simpa [Bucket.put, Function.update_of_ne hne] using ho
    · exact .refl _
  | delete_object key =>
    rcases h with rfl | ⟨rfl, -⟩
    · refine ⟨fun k => ?_, fun _ _ hx => hx, fun k o ho heq => ?_⟩
      · by_cases hk : k = key
        · subst hk
          simp [Bucket.delete]
        · simp [Bucket.delete, Function.update_of_ne hk]
      · by_cases hk : k = key
        · subst hk
          simp [Bucket.delete] at heq
        · simpa [Bucket.delete, Function.update_of_ne hk] using ho
    · exact .refl _
  | head_object | get_object | list_markers =>
    obtain ⟨rfl, -⟩ := h
    exact .refl _
  | list_base | before_delete =>
    obtain rfl : t = s := h
    exact .refl _

theorem bucket_stored (hsha : Hashes a B) (hs : WellStored a B s) {o : S3Call} {r : o.Answer}
    (hputs : Puts a B o) (h : bucket o s r t) : WellStored a B t := by
  cases o with
  | put_object key body digest =>
    rcases h with ⟨-, rfl⟩ | ⟨rfl, -⟩
    · obtain ⟨hbody, rfl⟩ := hputs
      have hcases : ∀ k o, (s.put key ⟨body, if is_digest (a.sha256 body) then
          some (a.sha256 body) else none⟩).objects k = some o →
          k = key ∧ o = ⟨body, some (a.sha256 body)⟩ ∨ s.objects k = some o := by
        intro k o ho
        by_cases hk : k = key
        · subst hk
          simp only [Bucket.put, Function.update_self, hsha.digests body hbody, if_true,
            Option.some.injEq] at ho
          exact .inl ⟨rfl, ho.symm⟩
        · exact .inr (by simpa [Bucket.put, Function.update_of_ne hk] using ho)
      constructor
      · intro k o ho
        rcases hcases k o ho with ⟨-, rfl⟩ | ho
        · exact hbody
        · exact hs.occurs k o ho
      · intro k o ho
        rcases hcases k o ho with ⟨-, rfl⟩ | ho
        · rfl
        · exact hs.hashed k o ho
      · intro k o ho
        rcases hcases k o ho with ⟨rfl, rfl⟩ | ho
        · exact .inr ⟨rfl, rfl⟩
        · exact .inl (hs.noted k o ho)
    · exact hs
  | delete_object key =>
    rcases h with rfl | ⟨rfl, -⟩
    · have hold : ∀ k o, (s.delete key).objects k = some o → s.objects k = some o := by
        intro k o ho
        by_cases hk : k = key
        · subst hk
          simp [Bucket.delete] at ho
        · simpa [Bucket.delete, Function.update_of_ne hk] using ho
      exact ⟨fun k o ho => hs.occurs k o (hold k o ho), fun k o ho => hs.hashed k o (hold k o ho),
        fun k o ho => hs.noted k o (hold k o ho)⟩
    · exact hs
  | head_object | get_object | list_markers =>
    obtain ⟨rfl, -⟩ := h
    exact hs
  | list_base | before_delete =>
    obtain rfl : t = s := h
    exact hs

/-! ## The contract between the callers -/

/-- A request that deletes none of the keys. -/
def Keeps (K : Set Key) (o : S3Call) : Prop := ∀ k ∈ K, o ≠ .delete_object k

theorem bucket_keeps {K : Set Key} {o : S3Call} {r : o.Answer} (hkeeps : Keeps K o)
    (h : bucket o s r t) : ∀ k ∈ K, t.deletions k = s.deletions k := by
  intro k hk
  cases o with
  | put_object key body digest =>
    rcases h with ⟨-, rfl⟩ | ⟨rfl, -⟩ <;> rfl
  | delete_object key =>
    rcases h with rfl | ⟨rfl, -⟩
    · have hne : k ≠ key := fun he => hkeeps k hk (he ▸ rfl)
      simp [Bucket.delete, Function.update_of_ne hne]
    · rfl
  | head_object | get_object | list_markers => rw [h.1]
  | list_base | before_delete =>
    obtain rfl : t = s := h
    rfl

variable {ι : Type}

/-- Others let the objects grow and delete none of the keys `K`. -/
def contract (a : WalS3Adapter) (B : Set Bytes) (K : Set Key) :
    Contract (fun _ : ι => S3) Bucket where
  invariant := WellStored a B
  rely := fun _ s t => Grows s t ∧ ∀ k ∈ K, t.deletions k = s.deletions k
  guard := fun _ o _ => Puts a B o ∧ Keeps K o
  rely_refl := fun _ s => ⟨.refl s, fun _ _ => rfl⟩
  rely_trans := fun _ _ _ _ h k => ⟨h.1.trans k.1, fun x hx => (k.2 x hx).trans (h.2 x hx)⟩

variable {K : Set Key} {W : ι → World S3 Bucket}

theorem contract_honoured (hsha : Hashes a B) (hW : ∀ i o s r t, W i o s r t → bucket o s r t) :
    (contract a B K).Honoured W := by
  rintro i o s r t hinv ⟨hputs, hkeeps⟩ hw
  have hb := hW _ _ _ _ _ hw
  exact ⟨bucket_stored hsha hinv hputs hb, fun _ _ => ⟨bucket_grows hb, bucket_keeps hkeeps hb⟩⟩

/-! ## Verified reads -/

theorem wp_refuse_if {V : World S3 Bucket} {G : S3.Op → Bucket → Prop} {c : Prop} [Decidable c]
    {e : WalS3Error} {f : Unit → S3M α} {Q : Except WalS3Error α → Bucket → Prop}
    (herr : c → Q (.error e) s) (hok : ¬ c → wp V G (f ()) Q s) :
    wp V G (refuse_if c e >>= f) Q s := by
  unfold refuse_if
  split
  · exact herr ‹_›
  · exact hok ‹_›

/-- The bytes were stored since `s`, and are unless they were deleted. -/
def StoredSince (s : Bucket) (key : Key) (body : Bytes) (t : Bucket) : Prop :=
  t.ever key body ∧
    (t.deletions key = s.deletions key → ∃ o, t.objects key = some o ∧ o.body = body)

theorem storedSince_grows {o : Stored} (hs : WellStored a B t) (hst : Grows s t)
    (ho : t.objects key = some o) (htu : Grows t u) : StoredSince s key o.body u := by
  refine ⟨htu.ever _ _ (hs.noted key o ho), fun heq => ⟨o, ?_, rfl⟩⟩
  have hle := hst.deletions key
  have hle' := htu.deletions key
  exact htu.kept key o ho (by omega)

variable {i : ι} {n m : Option ℕ}

/-- What is read back as its own digest is the caller's. -/
theorem wp_read_verified (hsha : Hashes a B) (hW : ∀ i o s r t, W i o s r t → bucket o s r t)
    (hbody : body ∈ B) (hst : Grows s t) :
    wp ((contract a B K).around W i) ((contract a B K).guard i)
      (read_verified a key (some (a.sha256 body)) n m)
      (fun r u => ∀ v, r = .ok v → StoredSince s key body u) t := by
  unfold read_verified
  apply wp_bind'.mpr
  refine wp_perform.mpr ⟨⟨trivial, fun _ _ h => by cases h⟩, ?_⟩
  rintro r u ⟨w, hhead, ⟨hwu, -⟩, hu⟩
  have htw := bucket_grows (hW _ _ _ _ _ hhead)
  cases head_info a key r with
  | error e => exact fun v hv => by cases hv
  | ok info =>
  refine wp_refuse_if (fun _ v hv => by cases hv) fun _ => ?_
  refine wp_refuse_if (fun _ v hv => by cases hv) fun _ => ?_
  refine wp_refuse_if (fun _ v hv => by cases hv) fun _ => ?_
  refine wp_refuse_if (fun _ v hv => by cases hv) fun _ => ?_
  apply wp_bind'.mpr
  refine wp_perform.mpr ⟨⟨trivial, fun _ _ h => by cases h⟩, ?_⟩
  rintro r x ⟨w', hget, ⟨hwx, -⟩, -⟩
  obtain ⟨rfl, htrue⟩ := hW _ _ _ _ _ hget
  cases r with
  | missing => exact fun v hv => by cases hv
  | failed message => exact fun v hv => by cases hv
  | found found =>
  refine wp_refuse_if (fun _ v hv => by cases hv) fun _ => ?_
  refine wp_refuse_if (fun _ v hv => by cases hv) fun hdigest v _ => ?_
  obtain ⟨o, ho, rfl⟩ := htrue found rfl
  have heq : a.sha256 o.body = a.sha256 body := by
    by_contra hne
    refine hdigest (.inr fun h => hne ?_)
    simpa [toLower_of_digest (hsha.digests body hbody)] using h
  obtain rfl := hsha.collision_free _ (hu.occurs key o ho) _ hbody heq
  exact storedSince_grows hu (hst.trans (htw.trans hwu)) ho hwx

/-! ## Creating an object -/

/-- A caller that succeeds has stored, or found, its own bytes. -/
theorem wp_put (hsha : Hashes a B) (hW : ∀ i o s r t, W i o s r t → bucket o s r t)
    (hbody : body ∈ B) (hst : Grows s t) :
    wp ((contract a B K).around W i) ((contract a B K).guard i) (put_bytes_immutable a body key)
      (fun r u => ∀ v, r = .ok v → StoredSince s key body u) t := by
  unfold put_bytes_immutable
  apply wp_bind'.mpr
  refine wp_perform.mpr ⟨⟨⟨hbody, rfl⟩, fun _ _ h => by cases h⟩, ?_⟩
  rintro r u ⟨w, hput, ⟨hwu, -⟩, -⟩
  have hsu := hst.trans ((bucket_grows (hW _ _ _ _ _ hput)).trans hwu)
  have hread : wp ((contract a B K).around W i) ((contract a B K).guard i)
      (read_verified a key (some (a.sha256 body)) (some body.length) none)
      (fun r x => ∀ v, r = .ok v → StoredSince s key body x) u :=
    wp_read_verified hsha hW hbody hsu
  cases r with
  | ok _ =>
    apply wp_bind'.mpr
    refine wp_post hread fun r x hr => ?_
    cases r with
    | error e => exact fun v hv => by cases hv
    | ok v => exact fun _ _ => hr v rfl
  | error original =>
    apply wp_bind'.mpr
    refine wp_mapError.mpr (wp_mapError.mpr (wp_post hread fun r x hr => ?_))
    cases r with
    | error e => exact fun v hv => by cases hv
    | ok v => exact fun _ _ => hr v rfl

/-- Reads of a present object succeed. -/
def Succeeds : (o : S3Call) → Bucket → o.Answer → Prop
  | .head_object key, s, r => (s.objects key).isSome → ∃ v, r = .found v
  | .get_object key, s, r => (s.objects key).isSome → ∃ v, r = .found v
  | _, _, _ => True

theorem wp_read_present {o : Stored} (hsha : Hashes a B)
    (hW : ∀ i o s r t, W i o s r t → bucket o s r t)
    (hreads : ∀ o s r t, W i o s r t → Succeeds o s r) (hkey : key ∈ K) (ht : WellStored a B t)
    (ho : t.objects key = some o) :
    wp ((contract a B K).around W i) ((contract a B K).guard i)
      (read_verified a key (some (a.sha256 o.body)) (some o.body.length) none)
      (fun r _ => ∃ v, r = .ok v) t := by
  have hbody := ht.occurs key o ho
  have hdigest := hsha.digests _ hbody
  unfold read_verified
  apply wp_bind'.mpr
  refine wp_perform.mpr ⟨⟨trivial, fun _ _ h => by cases h⟩, ?_⟩
  rintro r u ⟨w, hhead, ⟨hwu, hkept⟩, hu⟩
  obtain ⟨rfl, htrue⟩ := hW _ _ _ _ _ hhead
  obtain ⟨value, rfl⟩ := hreads _ _ _ _ hhead (by rw [ho]; rfl)
  obtain ⟨o', ho', rfl⟩ := htrue _ rfl
  cases ho.symm.trans ho'
  have hou := hwu.kept key o ho (hkept key hkey)
  rw [ht.hashed key o ho]
  refine wp_refuse_if (fun h => ?_) fun _ => ?_
  · simp [toLower_of_digest hdigest, hdigest] at h
  refine wp_refuse_if (fun h => ?_) fun _ => ?_
  · simp [toLower_of_digest hdigest] at h
  refine wp_refuse_if (fun h => ?_) fun _ => ?_
  · simp at h
  refine wp_refuse_if (fun h => ?_) fun _ => ?_
  · simp at h
  apply wp_bind'.mpr
  refine wp_perform.mpr ⟨⟨trivial, fun _ _ h => by cases h⟩, ?_⟩
  rintro r x ⟨w', hget, -, -⟩
  obtain ⟨rfl, htrue⟩ := hW _ _ _ _ _ hget
  obtain ⟨found, rfl⟩ := hreads _ _ _ _ hget (by rw [hou]; rfl)
  obtain ⟨o', ho', rfl⟩ := htrue _ rfl
  cases hou.symm.trans ho'
  refine wp_refuse_if (fun h => ?_) fun _ => ?_
  · simp at h
  refine wp_refuse_if (fun h => ?_) fun _ => ?_
  · simp [toLower_of_digest hdigest] at h
  exact ⟨_, rfl⟩

/-- A repeated call finds its own bytes. -/
theorem wp_put_present {o : Stored} (hsha : Hashes a B)
    (hW : ∀ i o s r t, W i o s r t → bucket o s r t)
    (hreads : ∀ o s r t, W i o s r t → Succeeds o s r) (hkey : key ∈ K) (ht : WellStored a B t)
    (ho : t.objects key = some o) :
    wp ((contract a B K).around W i) ((contract a B K).guard i) (put_bytes_immutable a o.body key)
      (fun r _ => ∃ v, r = .ok v) t := by
  unfold put_bytes_immutable
  apply wp_bind'.mpr
  refine wp_perform.mpr ⟨⟨⟨ht.occurs key o ho, rfl⟩, fun _ _ h => by cases h⟩, ?_⟩
  rintro r u ⟨w, hput, ⟨hwu, hkept⟩, hu⟩
  rcases hW _ _ _ _ _ hput with ⟨habsent, -⟩ | ⟨rfl, e, rfl⟩
  · rw [ho] at habsent
    cases habsent
  have hou := hwu.kept key o ho (hkept key hkey)
  apply wp_bind'.mpr
  refine wp_mapError.mpr (wp_mapError.mpr ?_)
  refine wp_post (wp_read_present hsha hW hreads hkey hu hou) fun r x hr => ?_
  obtain ⟨v, rfl⟩ := hr
  exact ⟨_, rfl⟩

/-! ## Callers -/

inductive Caller where
  | archive_wal (source : Source) (filename : Option String)
  | put_immutable (source : Source) (key : Key)
  | put_bytes_immutable (payload : Bytes) (key : Key)
  | delete (key : Key)

def Caller.run (a : WalS3Adapter) : Caller → S3M Unit
  | .archive_wal source filename => do
    let _ ← S3Objects.archive_wal a source filename
    .pure ()
  | .put_immutable source key => do
    let _ ← S3Objects.put_immutable a source key
    .pure ()
  | .put_bytes_immutable payload key => do
    let _ ← S3Objects.put_bytes_immutable a payload key
    .pure ()
  | .delete key => delete_owned_key a key

/-- The key and the bytes of what a caller creates. -/
def Caller.Writes : Caller → Key → Bytes → Prop
  | .archive_wal source filename, key, body => is_archive_name (filename.getD source.name) = true ∧
      key = .wal (filename.getD source.name) ∧ source.content = some body
  | .put_immutable source key', key, body => key = key' ∧ source.content = some body
  | .put_bytes_immutable payload key', key, body => key = key' ∧ payload = body
  | .delete _, _, _ => False

theorem Caller.run_eq {c : Caller} (h : c.Writes key body) :
    c.run a = S3Objects.put_bytes_immutable a body key >>= fun _ => .pure () := by
  cases c with
  | archive_wal source filename =>
    obtain ⟨hname, rfl, hcontent⟩ := h
    simp only [Caller.run, S3Objects.archive_wal, wal_name, if_pos hname]
    change (S3Objects.put_immutable a source _ >>= fun _ => Prog.pure ()) = _
    rw [S3Objects.put_immutable, hcontent]
  | put_immutable source key' =>
    obtain ⟨rfl, hcontent⟩ := h
    rw [Caller.run, S3Objects.put_immutable, hcontent]
  | put_bytes_immutable payload key' =>
    obtain ⟨rfl, rfl⟩ := h
    rfl
  | delete key' => exact h.elim

theorem calls_read_verified {D : S3.Op → Prop} {expected : Option String} {n m : Option ℕ}
    (hhead : D (S3Call.head_object key)) (hget : D (S3Call.get_object key)) :
    (read_verified a key expected n m).Calls D := by
  have hrefuse : ∀ {c : Prop} [Decidable c] {e : WalS3Error}, (refuse_if c e).Calls D := by
    intro c _ e
    unfold refuse_if
    split
    · exact calls_raise _
    · exact calls_pure _
  refine calls_bind (calls_perform.mpr hhead) fun _ => ?_
  refine calls_bind hrefuse fun _ => calls_bind hrefuse fun _ => ?_
  refine calls_bind hrefuse fun _ => calls_bind hrefuse fun _ => ?_
  refine calls_bind (calls_perform.mpr hget) fun _ => ?_
  exact calls_bind hrefuse fun _ => calls_bind hrefuse fun _ => calls_pure _

theorem calls_put {D : S3.Op → Prop} (hput : D (S3Call.put_object key body (a.sha256 body)))
    (hhead : D (S3Call.head_object key)) (hget : D (S3Call.get_object key)) :
    (put_bytes_immutable a body key).Calls D := by
  refine calls_bind (calls_perform.mpr hput) fun r => ?_
  cases r with
  | ok _ => exact calls_bind (calls_read_verified hhead hget) fun _ => calls_pure _
  | error e =>
    refine calls_bind ?_ fun _ => calls_pure _
    exact calls_mapError (calls_mapError (calls_read_verified hhead hget))

/-- Callers put their own bytes with their own digest. -/
theorem Caller.puts {c : Caller} (h : ∀ key body, c.Writes key body → body ∈ B) :
    (c.run a).Calls (Puts a B) := by
  by_cases hw : ∃ key body, c.Writes key body
  · obtain ⟨key, body, hw⟩ := hw
    rw [c.run_eq hw]
    exact calls_bind (calls_put ⟨h key body hw, rfl⟩ trivial trivial) fun _ => calls_pure _
  · cases c with
    | archive_wal source filename =>
      simp only [Caller.run, S3Objects.archive_wal, wal_name]
      split
      · next hname =>
        change (S3Objects.put_immutable a source _ >>= fun _ => Prog.pure ()).Calls _
        cases hcontent : source.content with
        | none =>
          rw [S3Objects.put_immutable, hcontent]
          exact calls_raise _
        | some body => exact absurd ⟨_, body, hname, rfl, hcontent⟩ hw
      · exact calls_raise _
    | put_immutable source key =>
      cases hcontent : source.content with
      | none =>
        rw [Caller.run, S3Objects.put_immutable, hcontent]
        exact calls_raise _
      | some body => exact absurd ⟨key, body, rfl, hcontent⟩ hw
    | put_bytes_immutable payload key => exact absurd ⟨key, payload, rfl, rfl⟩ hw
    | delete key => exact calls_perform.mpr trivial

/-! ## Runs -/

/-- A bucket whose history starts here. -/
def opened (objects : Key → Option Stored) : Bucket where
  objects := objects
  deletions := fun _ => 0
  ever := fun k x => ∃ o, objects k = some o ∧ o.body = x

section Runs

variable [DecidableEq ι] {objects : Key → Option Stored}
  {ps qs : Pool (fun _ : ι => S3) (fun _ => WalS3Error) fun _ => Unit}

theorem pool_holds (hs : WellStored a B (opened objects))
    (hps : ∀ j, (ps j).Calls fun o => Puts a B o ∧ Keeps K o) (i : ι)
    {Q : Except WalS3Error Unit → Bucket → Prop}
    (hi : ∀ t, Grows (opened objects) t → (∀ k ∈ K, t.deletions k = 0) → WellStored a B t →
      wp ((contract a B K).around W i) ((contract a B K).guard i) (ps i) Q t) :
    (contract a B K).Holds W (fun j r u => j = i → Q r u) (opened objects) ps := by
  refine ⟨hs, fun j u hrely hu => ?_⟩
  by_cases hj : j = i
  · subst hj
    exact wp_post (hi u hrely.1 hrely.2 hu) fun _ _ h _ => h
  · exact wp_post (wp_of_calls (hps j) (fun _ _ h => h) u) fun _ _ _ he => absurd he hj

theorem puts_keeps {p : S3M Unit} (h : p.Calls (Puts a B)) (hk : p.Calls (Keeps K)) :
    p.Calls fun o => Puts a B o ∧ Keeps K o := by
  induction p with
  | pure x => trivial
  | raise e => trivial
  | call o k ih => exact ⟨⟨h.1, hk.1⟩, fun r => ih r (h.2 r) (hk.2 r)⟩

/-- The bytes under a key never change until it is deleted. A caller that succeeds found its
own bytes stored; beside other bytes it raises; beside its own, where reads succeed and
nothing deletes them, it does not. -/
theorem archived_objects_immutable (hsha : Hashes a B)
    (hW : ∀ i o s r t, W i o s r t → bucket o s r t) (hs : WellStored a B (opened objects))
    (hps : ∀ j, (ps j).Calls (Puts a B)) (hrun : Interleaved W (opened objects) ps t qs) :
    (∀ k o, objects k = some o → t.deletions k = 0 → t.objects k = some o) ∧
    ∀ i (c : Caller) key body, ps i = c.run a → c.Writes key body →
      (qs i = .ofExcept (.ok ()) → t.ever key body ∧
        (t.deletions key = 0 → ∃ o, t.objects key = some o ∧ o.body = body)) ∧
      ∀ o, objects key = some o →
        (o.body ≠ body → t.deletions key = 0 → qs i ≠ .ofExcept (.ok ())) ∧
        (o.body = body → (∀ o s r t, W i o s r t → Succeeds o s r) →
          (∀ j, (ps j).Calls (Keeps {key})) → ∀ e, qs i ≠ .ofExcept (.error e)) := by
  have hcalls : ∀ j, (ps j).Calls fun o => Puts a B o ∧ Keeps ∅ o := fun j =>
    puts_keeps (hps j) (calls_all (fun _ _ hk => absurd hk (Set.notMem_empty _)) _)
  have hgrows : Grows (opened objects) t := by
    have hholds : (contract a B ∅).Holds W (fun _ _ _ => True) (opened objects) ps :=
      ⟨hs, fun j u _ _ => wp_of_calls (hcalls j) (fun _ _ h => h) u⟩
    exact hholds.relates (contract_honoured hsha hW) hrun Grows.refl (fun _ _ _ => Grows.trans)
      fun i o s r t _ _ hw => bucket_grows (hW i o s r t hw)
  refine ⟨hgrows.kept, fun i c key body hc hwrites => ?_⟩
  have hok : qs i = .ofExcept (.ok ()) → StoredSince (opened objects) key body t := by
    intro hend
    have hholds := pool_holds (W := W) hs hcalls i
      (Q := fun r u => ∀ v, r = .ok v → StoredSince (opened objects) key body u) (by
        intro u hu _ hstored
        rw [hc, c.run_eq hwrites]
        apply wp_bind'.mpr
        have hbody : body ∈ B := by
          have hcall := hps i
          rw [hc, c.run_eq hwrites] at hcall
          exact hcall.1.1
        refine wp_post (wp_put hsha hW hbody hu) fun r x hr => ?_
        cases r with
        | error e => exact fun v hv => by cases hv
        | ok v => exact fun _ _ => hr v rfl)
    exact (hholds.run (contract_honoured hsha hW) hrun).ended hend rfl () rfl
  refine ⟨hok, fun o ho => ⟨fun hne hkept hend => ?_, fun heq hreads hkeeps e hend => ?_⟩⟩
  · obtain ⟨o', ho', hbody⟩ := (hok hend).2 hkept
    have hsame := hgrows.kept key o ho hkept
    cases hsame.symm.trans ho'
    exact hne hbody
  · subst heq
    have hholds := pool_holds (W := W) (K := {key}) hs
      (fun j => puts_keeps (hps j) (hkeeps j)) i (Q := fun r _ => ∃ v, r = .ok v) (by
        intro u hu hkept hstored
        rw [hc, c.run_eq hwrites]
        apply wp_bind'.mpr
        have hou := hu.kept key o ho (hkept key rfl)
        refine wp_post (wp_put_present hsha hW hreads rfl hstored hou) fun r x hr => ?_
        obtain ⟨v, rfl⟩ := hr
        exact ⟨(), rfl⟩)
    obtain ⟨v, hv⟩ := (hholds.run (contract_honoured hsha hW) hrun).ended hend rfl
    cases hv

end Runs

/-! ## A bucket without faults -/

def serve : (o : S3Call) → Bucket → o.Answer × Bucket
  | .put_object key body digest, s =>
    if (s.objects key).isNone then
      (.ok (), s.put key ⟨body, if is_digest digest then some digest else none⟩)
    else (.error "PreconditionFailed", s)
  | .head_object key, s => (match s.objects key with
    | some o => .found (o.body.length, o.digest)
    | none => .missing, s)
  | .get_object key, s => (match s.objects key with
    | some o => .found o.body
    | none => .missing, s)
  | .delete_object key, s => (.ok (), s.delete key)
  | .list_base _, s => (.ok [], s)
  | .list_markers, s => (.ok [], s)
  | .before_delete _, s => (.ok (), s)

theorem serve_bucket (o : S3Call) (s : Bucket) :
    bucket o s (serve o s).1 (serve o s).2 ∧ Succeeds o s (serve o s).1 := by
  cases o with
  | put_object key body digest =>
    refine ⟨?_, trivial⟩
    by_cases h : (s.objects key).isNone = true
    · left
      exact ⟨Option.isNone_iff_eq_none.mp h, by simp only [serve, if_pos h]⟩
    · right
      exact ⟨by simp only [serve, if_neg h], _, by simp only [serve, if_neg h]; rfl⟩
  | head_object key =>
    cases ho : s.objects key with
    | none => exact ⟨⟨rfl, fun v hv => by simp [serve, ho] at hv⟩, fun h => by simp [ho] at h⟩
    | some o =>
      refine ⟨⟨rfl, fun v hv => ⟨o, ho, ?_⟩⟩, fun _ => ⟨(o.body.length, o.digest), ?_⟩⟩
      · simp only [serve, ho] at hv
        cases hv
        rfl
      · simp only [serve, ho]
  | get_object key =>
    cases ho : s.objects key with
    | none => exact ⟨⟨rfl, fun v hv => by simp [serve, ho] at hv⟩, fun h => by simp [ho] at h⟩
    | some o =>
      refine ⟨⟨rfl, fun v hv => ⟨o, ho, ?_⟩⟩, fun _ => ⟨o.body, ?_⟩⟩
      · simp only [serve, ho] at hv
        cases hv
        rfl
      · simp only [serve, ho]
  | delete_object key => exact ⟨.inl rfl, trivial⟩
  | list_base base_backup_id => exact ⟨rfl, trivial⟩
  | list_markers =>
    refine ⟨⟨rfl, fun ids hids id hid => ?_⟩, trivial⟩
    cases hids
    cases hid
  | before_delete key => exact ⟨rfl, trivial⟩

def exampleAdapter : WalS3Adapter where
  bucket_name := "acme-wal"
  scope_prefix := "projects/acme/clusters/main/7400000000000000001"
  project := "acme"
  cluster_id := "main"
  system_identifier := "7400000000000000001"
  sha256 := fun x => String.ofList (List.replicate 64 (if x = [1] then 'a' else 'b'))

def segment : Key := .wal "000000010000000000000001"

def archived (key : Key) : Option Stored :=
  if key = segment then some ⟨[1], some (exampleAdapter.sha256 [1])⟩ else none

theorem example_hashes : Hashes exampleAdapter {[1], [2]} := by
  constructor
  · rintro x (rfl | rfl) y (rfl | rfl) h
    · rfl
    · exact absurd h (by decide +kernel)
    · exact absurd h (by decide +kernel)
    · rfl
  · rintro x (rfl | rfl) <;> decide +kernel

theorem archived_stored : WellStored exampleAdapter {[1], [2]} (opened archived) := by
  have hcases : ∀ k o, archived k = some o → o = ⟨[1], some (exampleAdapter.sha256 [1])⟩ := by
    intro k o ho
    unfold archived at ho
    split at ho
    · exact (Option.some.inj ho).symm
    · cases ho
  constructor
  · intro k o ho
    rw [hcases k o ho]
    exact .inl rfl
  · intro k o ho
    rw [hcases k o ho]
  · exact fun k o ho => ⟨o, ho, rfl⟩

def callers (repeats : Bool) : Caller := .put_bytes_immutable (if repeats then [1] else [2]) segment

/-- The caller that repeats, and then the one with other bytes. -/
def repeated : Except WalS3Error Unit × Bucket :=
  ((callers true).run exampleAdapter).run (F := S3) serve (opened archived)

def conflicting : Except WalS3Error Unit × Bucket :=
  ((callers false).run exampleAdapter).run (F := S3) serve repeated.2

theorem archived_objects_immutable_segment :
    conflicting.2.objects segment = archived segment ∧ (∀ e, repeated.1 ≠ .error e) ∧
      conflicting.1 ≠ .ok () := by
  let W : Bool → World S3 Bucket := fun _ o s r t => bucket o s r t ∧ Succeeds o s r
  let ps : Pool (fun _ : Bool => S3) (fun _ => WalS3Error) (fun _ => Unit) :=
    fun i => (callers i).run exampleAdapter
  have hwrites : ∀ i, (callers i).Writes segment (if i then [1] else [2]) := fun i => ⟨rfl, rfl⟩
  have hfirst := Interleaved.run (W := W) (p := ps) true
    (ends_run (W := W true) serve_bucket (ps true) (opened archived))
  have hsecond : Interleaved W repeated.2 (Function.update ps true (.ofExcept repeated.1))
      conflicting.2 (Function.update (Function.update ps true (.ofExcept repeated.1)) false
        (.ofExcept conflicting.1)) :=
    Interleaved.run false (ends_run (W := W false) serve_bucket (ps false) repeated.2)
  have hputs : ∀ j, (ps j).Calls (Puts exampleAdapter {[1], [2]}) := by
    intro j
    apply Caller.puts
    rintro key body ⟨-, rfl⟩
    cases j
    · exact .inr rfl
    · exact .inl rfl
  have hkeeps : ∀ j, (ps j).Calls (Keeps {segment}) := fun j =>
    calls_bind (calls_put (fun _ _ h => by cases h) (fun _ _ h => by cases h)
      fun _ _ h => by cases h) fun _ => calls_pure _
  have hdeletions : conflicting.2.deletions segment = 0 := by decide +kernel
  have hstored : archived segment = some ⟨[1], some (exampleAdapter.sha256 [1])⟩ := if_pos rfl
  obtain ⟨hkept, hcallers⟩ := archived_objects_immutable example_hashes (fun _ _ _ _ _ h => h.1)
    archived_stored hputs (hfirst.trans hsecond)
  refine ⟨(hkept _ _ hstored hdeletions).trans hstored.symm, fun e he => ?_, fun hok => ?_⟩
  · refine ((hcallers true (callers true) _ _ rfl (hwrites true)).2 _ hstored).2 rfl
      (fun _ _ _ _ h => h.2) hkeeps e ?_
    rw [Function.update_of_ne (by decide), Function.update_self, he]
  · refine ((hcallers false (callers false) _ _ rfl (hwrites false)).2 _ hstored).1
      (by decide) hdeletions ?_
    rw [Function.update_self, hok]

end ImmutableObjects
