import Odooctl.InterleavedPrograms
import Odooctl.SecretStore

/-!
# Updates of one secret file

Instances of the store in any number, each with its own copy of the file. A copy is stale once
another instance has replaced the file; saving a stale copy takes that update back.
-/
namespace SecretUpdates

open EffectPrograms InterleavedPrograms SecretStore

/-- What a file holds: torn is whatever `json.loads` may refuse. -/
inductive Content where
  | empty
  | data (secrets : Secrets)
  | torn

/-- Files by number. `stale i` tells that another instance replaced the file since instance `i`
took it in, `saving i` that `i` is between opening the temporary file and replacing the file. -/
structure Disk (ι : Type) where
  path : Option ℕ
  temporary : Option ℕ
  content : ℕ → Content
  created : ℕ
  stale : ι → Bool
  saving : ι → Bool

section Disk

variable {ι : Type} [DecidableEq ι] (s : Disk ι) (i : ι)

/-- What a store that is opened now takes in. -/
def Disk.read : Option Secrets :=
  match s.path with
  | none => some ∅
  | some n => match s.content n with
    | .data secrets => some secrets
    | _ => none

def Disk.entry (name : String) : Option SecretEntry := s.read.bind (·[name]?)

def Disk.note_read : Disk ι := { s with stale := Function.update s.stale i false }

def Disk.note_saving (now : Bool) : Disk ι := { s with saving := Function.update s.saving i now }

def Disk.fill (n : ℕ) (c : Content) : Disk ι := { s with content := Function.update s.content n c }

def Disk.create : Disk ι := { s with temporary := some s.created, created := s.created + 1 }

def Disk.rename (n : ℕ) : Disk ι :=
  { s with path := some n, temporary := none, stale := fun j => j ≠ i || s.stale i }

/-- A file of the same name is truncated when it is opened; what is written over something
else is torn, and so is what was written when a write fails. -/
def fileWorld : World Files (Disk ι)
  | .exists_file, s, r, t => r = s.path.isSome ∧ t = if r = true then s else s.note_read i
  | .read_file, s, r, t => (∀ data, r = .ok data → s.read = some data) ∧ t = s.note_read i
  | .utcnow, s, _, t => t = s
  | .token_bytes _, s, _, t => t = s
  | .open_temporary, s, r, t =>
      (∃ n, r = .ok n ∧ s.temporary = some n ∧ t = (s.fill n .empty).note_saving i true) ∨
      (r = .ok s.created ∧ s.temporary = none ∧
        t = (s.create.fill s.created .empty).note_saving i true) ∨
      (∃ message, r = .error message) ∧ t = s
  | .write n data, s, r, t =>
      (r = .ok () ∧ s.content n = .empty ∧ t = s.fill n (.data data)) ∨
      (r = .ok () ∧ s.content n ≠ .empty ∧ t = s.fill n .torn) ∨
      (∃ message, r = .error message) ∧ t = (s.fill n .torn).note_saving i false
  | .replace, s, r, t =>
      (∃ n, r = .ok () ∧ s.temporary = some n ∧ t = (s.rename i n).note_saving i false) ∨
      (∃ message, r = .error message) ∧ t = s.note_saving i false

/-- A save begins with a copy that is not stale and while no other instance is saving. -/
def Orderly (i : ι) (o : StoreCall) (s : Disk ι) : Prop :=
  match o with
  | .open_temporary => s.stale i = false ∧ ∀ j, j ≠ i → s.saving j = false
  | _ => True

def orderlyWorld (i : ι) : World Files (Disk ι) :=
  fun o s r t => Orderly i o s ∧ fileWorld i o s r t

end Disk

/-- The file, if there is one, is readable, and nobody is saving. -/
structure Start {ι : Type} (s : Disk ι) : Prop where
  readable : ∃ data, s.read = some data
  idle : ∀ i, s.saving i = false
  path : ∀ n, s.path = some n → n < s.created
  temporary : ∀ n, s.temporary = some n → n < s.created ∧ s.path ≠ some n

/-- No two calls name the same secret. -/
structure Distinct {ι : Type} (lists : ι → List Call) : Prop where
  within : ∀ i, ((lists i).map Call.name).Nodup
  between : ∀ i j, i ≠ j → ∀ name ∈ (lists i).map Call.name, name ∉ (lists j).map Call.name

/-- A store that has `data` shows what the call `c`, which returned `r`, has done. -/
def Shown (H : Hashes) (key : Bytes) (data : Secrets) (c : Call) (r : Option SecretRecord) : Prop :=
  match c with
  | .put name value _ => ∃ record, r = some record ∧ metadata data name = .ok record ∧
      ∀ environ, get H key environ data name = .ok value
  | .put_reference name env_var _ => ∃ record, r = some record ∧
      metadata data name = .ok record ∧
      ∀ environ value, environ env_var = some value → get H key environ data name = .ok value
  | .rotate name new_value => ∃ record, r = some record ∧ metadata data name = .ok record ∧
      (record.source = "stored" → ∃ value, new_value = some value ∧
        ∀ environ, get H key environ data name = .ok value)
  | .delete name => r = none ∧ metadata data name = .error (.not_found name)

/-- What a call puts in the place of the entry of its name. -/
def Made (H : Hashes) (key : Bytes) (c : Call) (e : Option SecretEntry) : Prop :=
  match c with
  | .put _ value _ => ∃ entry cipher, e = some entry ∧ entry.source = "stored" ∧
      entry.cipher = some cipher ∧ decrypt H key cipher = .ok value
  | .put_reference _ env_var _ => ∃ entry, e = some entry ∧ entry.source = "env" ∧
      entry.env_var = some env_var
  | .rotate _ new_value => ∃ entry, e = some entry ∧ (entry.source = "stored" →
      ∃ value cipher, new_value = some value ∧ entry.cipher = some cipher ∧
        decrypt H key cipher = .ok value)
  | .delete _ => e = none

section Entries

variable {H : Hashes} {key : Bytes} {data : Secrets} {c : Call} {e : Option SecretEntry}

/-- The entry that a call made is what a store with that entry shows. -/
theorem shown_of_made (hmade : Made H key c e) (hdata : data[c.name]? = e) :
    Shown H key data c (e.map (SecretEntry.record c.name)) := by
  cases c with
  | put name value days =>
    obtain ⟨entry, cipher, rfl, hsource, hcipher, hvalue⟩ := hmade
    change data[name]? = some entry at hdata
    refine ⟨entry.record name, rfl, by simp [metadata, hdata], ?_⟩
    intro environ
    simp [SecretStore.get, hdata, hsource, hcipher, hvalue]
  | put_reference name env_var days =>
    obtain ⟨entry, rfl, hsource, henv⟩ := hmade
    change data[name]? = some entry at hdata
    refine ⟨entry.record name, rfl, by simp [metadata, hdata], ?_⟩
    intro environ value hvalue
    simp [SecretStore.get, hdata, hsource, henv, hvalue]
  | rotate name new_value =>
    obtain ⟨entry, rfl, hstored⟩ := hmade
    change data[name]? = some entry at hdata
    refine ⟨entry.record name, rfl, by simp [metadata, hdata], ?_⟩
    intro hsource
    obtain ⟨value, cipher, hnew, hcipher, hvalue⟩ := hstored hsource
    refine ⟨value, hnew, ?_⟩
    intro environ
    have hsource' : entry.source = "stored" := hsource
    simp [SecretStore.get, hdata, hsource', hcipher, hvalue]
  | delete name =>
    obtain rfl : e = none := hmade
    change data[name]? = none at hdata
    exact ⟨rfl, by simp [metadata, hdata]⟩

theorem getElem?_set (name m : String) (entry : Option SecretEntry) :
    (Secrets.set data name entry)[m]? = if name = m then entry else data[m]? := by
  cases entry with
  | none => simp [Secrets.set, Std.ExtTreeMap.getElem?_erase]
  | some entry => simp [Secrets.set, Std.ExtTreeMap.getElem?_insert]

end Entries

/-! ## What the instances leave to each other -/

structure Sound {ι : Type} (s : Disk ι) : Prop where
  readable : ∃ data, s.read = some data
  one : ∀ i j, s.saving i = true → s.saving j = true → i = j
  path : ∀ n, s.path = some n → n < s.created
  temporary : ∀ n, s.temporary = some n → n < s.created ∧ s.path ≠ some n

section Contract

variable {ι : Type} (names : ι → List String)

/-- What the other instances leave to instance `i`, which changes the names `names i`. -/
structure Around (i : ι) (s t : Disk ι) : Prop where
  entries : ∀ m ∈ names i, t.entry m = s.entry m
  fresh : t.stale i = false → s.stale i = false ∧ t.read = s.read
  saving : t.saving i = s.saving i
  files : s.saving i = true → t.read = s.read ∧ t.temporary = s.temporary ∧ t.content = s.content

/-- A write goes to the file just truncated, and what replaces the file has its entries under
the names of the others. -/
def instanceGuard (i : ι) (o : StoreCall) (s : Disk ι) : Prop :=
  match o with
  | .write n _ => s.saving i = true ∧ s.temporary = some n ∧ s.content n = .empty
  | .replace => s.saving i = true ∧ ∃ n data, s.temporary = some n ∧ s.content n = .data data ∧
      ∀ m, m ∉ names i → data[m]? = s.entry m
  | _ => True

variable {names} {i j : ι} {s t u : Disk ι}

theorem Around.refl (i : ι) (s : Disk ι) : Around names i s s :=
  ⟨fun _ _ => rfl, fun h => ⟨h, rfl⟩, rfl, fun _ => ⟨rfl, rfl, rfl⟩⟩

theorem Around.trans (h : Around names i s t) (k : Around names i t u) : Around names i s u where
  entries m hm := (k.entries m hm).trans (h.entries m hm)
  fresh hu := by
    obtain ⟨ht, hread⟩ := k.fresh hu
    obtain ⟨hs, hread'⟩ := h.fresh ht
    exact ⟨hs, hread.trans hread'⟩
  saving := k.saving.trans h.saving
  files hs := by
    obtain ⟨hread, htemp, hcontent⟩ := h.files hs
    obtain ⟨hread', htemp', hcontent'⟩ := k.files (h.saving.trans hs)
    exact ⟨hread'.trans hread, htemp'.trans htemp, hcontent'.trans hcontent⟩

def instances (names : ι → List String) : Contract (fun _ : ι => Files) (Disk ι) where
  invariant := Sound
  rely := Around names
  guard := instanceGuard names
  rely_refl := Around.refl
  rely_trans := fun _ _ _ _ h k => h.trans k

/-- A step that leaves the file and the notes of the others as they are. -/
theorem around_same (hread : t.read = s.read) (hstale : ∀ k, k ≠ i → t.stale k = s.stale k)
    (hsaving : ∀ k, k ≠ i → t.saving k = s.saving k)
    (hfiles : ∀ k, k ≠ i → s.saving k = true → t.temporary = s.temporary ∧ t.content = s.content) :
    ∀ j, j ≠ i → Around names j s t := by
  intro j hj
  refine ⟨fun m _ => by rw [Disk.entry, Disk.entry, hread], ?_, hsaving j hj, ?_⟩
  · intro h
    exact ⟨(hstale j hj).symm.trans h, hread⟩
  · intro h
    exact ⟨hread, hfiles j hj h⟩

/-- Filling another file than that of the store leaves the store. -/
theorem read_fill {n : ℕ} {c : Content} (h : s.path ≠ some n) : (s.fill n c).read = s.read := by
  cases hp : s.path with
  | none => simp [Disk.read, Disk.fill, hp]
  | some m =>
    have hne : m ≠ n := by
      rintro rfl
      exact h hp
    simp [Disk.read, Disk.fill, hp, hne]

/-- A write to the temporary file. -/
theorem sound_filled (names : ι → List String) {n : ℕ} (c : Content) (hs : Sound s) (hmine : s.saving i = true)
    (htemp : s.temporary = some n) : Sound (s.fill n c) ∧
    ∀ j, j ≠ i → Around names j s (s.fill n c) := by
  have hread := read_fill (c := c) (hs.temporary n htemp).2
  refine ⟨⟨hread.symm ▸ hs.readable, hs.one, hs.path, hs.temporary⟩, ?_⟩
  apply around_same hread (fun _ _ => rfl) (fun _ _ => rfl)
  intro k hk hsave
  exact absurd (hs.one k i hsave hmine) hk

/-- The copy agrees with the file on the names of the others unless it is stale, and on the
names this instance has saved. -/
structure Copy (names : ι → List String) (i : ι) (done : List String) (data : Secrets)
    (s : Disk ι) : Prop where
  sound : Sound s
  others : s.stale i = false → ∀ m, m ∉ names i → data[m]? = s.entry m
  done : ∀ m ∈ done, data[m]? = s.entry m
  idle : s.saving i = false

/-- In the middle of a save that began in `s₀`. -/
structure Saving (i : ι) (n : ℕ) (c : Content) (s₀ s : Disk ι) : Prop where
  sound : Sound s
  saving : s.saving i = true
  temporary : s.temporary = some n
  content : s.content n = c
  read : s.read = s₀.read

variable {done : List String} {data : Secrets} {n : ℕ} {c : Content} {s₀ : Disk ι}

theorem Copy.around (h : Copy names i done data s) (hdone : ∀ m ∈ done, m ∈ names i)
    (k : Around names i s t) (ht : Sound t) : Copy names i done data t where
  sound := ht
  others hfresh m hm := by
    obtain ⟨hs, hread⟩ := k.fresh hfresh
    rw [h.others hs m hm, Disk.entry, Disk.entry, hread]
  done m hm := (h.done m hm).trans (k.entries m (hdone m hm)).symm
  idle := k.saving.trans h.idle

theorem Saving.around (h : Saving i n c s₀ s) (k : Around names i s t) (ht : Sound t) :
    Saving i n c s₀ t := by
  obtain ⟨hread, htemp, hcontent⟩ := k.files h.saving
  exact ⟨ht, k.saving.trans h.saving, htemp.trans h.temporary,
    (congrFun hcontent n).trans h.content, hread.trans h.read⟩

/-- Changing an entry of its own leaves what the copy says of the others. -/
theorem Copy.set (h : Copy names i done data s) {name : String} {e : Option SecretEntry}
    (hname : name ∈ names i) (hnew : name ∉ done) :
    Copy names i done (Secrets.set data name e) s where
  sound := h.sound
  others hfresh m hm := by
    have hne : name ≠ m := by
      rintro rfl
      exact hm hname
    rw [getElem?_set, if_neg hne]
    exact h.others hfresh m hm
  done m hm := by
    have hne : name ≠ m := by
      rintro rfl
      exact hnew hm
    rw [getElem?_set, if_neg hne]
    exact h.done m hm
  idle := h.idle

theorem start_sound (hs : Start s) : Sound s where
  readable := hs.readable
  one j k hj := by
    rw [hs.idle j] at hj
    cases hj
  path := hs.path
  temporary := hs.temporary

/-- After a failure the file is as it was when the save began. -/
theorem Copy.failed (h : Copy names i done data s) (hdone : ∀ m ∈ done, m ∈ names i)
    (hread : u.read = s.read) (hfresh : u.stale i = false → s.stale i = false)
    (hidle : u.saving i = false) (k : Around names i u t) (ht : Sound t) :
    Copy names i done data t where
  sound := ht
  others hnow m hm := by
    obtain ⟨hu, hread'⟩ := k.fresh hnow
    rw [Disk.entry, hread', hread]
    exact h.others (hfresh hu) m hm
  done m hm := by
    rw [k.entries m (hdone m hm), Disk.entry, hread]
    exact h.done m hm
  idle := k.saving.trans hidle

variable [DecidableEq ι]

theorem sound_note_read (hs : Sound s) : Sound (s.note_read i) ∧
    ∀ j, j ≠ i → Around names j s (s.note_read i) := by
  refine ⟨⟨hs.readable, hs.one, hs.path, hs.temporary⟩, ?_⟩
  exact around_same rfl (fun k hk => by simp [Disk.note_read, hk]) (fun _ _ => rfl)
    (fun _ _ _ => ⟨rfl, rfl⟩)

theorem note_saving_others (now : Bool) : ∀ k, k ≠ i → (s.note_saving i now).saving k = s.saving k := by
  intro k hk
  simp [Disk.note_saving, hk]

/-- An instance that leaves its save. -/
theorem sound_idle (names : ι → List String) (i : ι) (hs : Sound s) : Sound (s.note_saving i false) ∧
    ∀ j, j ≠ i → Around names j s (s.note_saving i false) := by
  constructor
  · refine ⟨hs.readable, ?_, hs.path, hs.temporary⟩
    intro j k hj hk
    by_cases hji : j = i
    · simp [Disk.note_saving, hji] at hj
    · by_cases hki : k = i
      · simp [Disk.note_saving, hki] at hk
      · rw [note_saving_others false j hji] at hj
        rw [note_saving_others false k hki] at hk
        exact hs.one j k hj hk
  · exact around_same rfl (fun _ _ => rfl) (note_saving_others false) (fun _ _ _ => ⟨rfl, rfl⟩)

/-- An instance that begins its save when nobody is saving. -/
theorem sound_opened (names : ι → List String) {n : ℕ} (hs : Sound s) (ht : t.read = s.read) (hpath : t.path = s.path)
    (hcreated : s.created ≤ t.created) (htemp : t.temporary = some n) (hn : n < t.created)
    (hfree : s.path ≠ some n) (hstale : t.stale = s.stale) (hsaving : t.saving = s.saving)
    (hidle : ∀ j, j ≠ i → s.saving j = false) : Sound (t.note_saving i true) ∧
    ∀ j, j ≠ i → Around names j s (t.note_saving i true) := by
  have hothers : ∀ j, j ≠ i → (t.note_saving i true).saving j = s.saving j := by
    intro j hj
    rw [note_saving_others true j hj, hsaving]
  constructor
  · refine ⟨?_, ?_, ?_, ?_⟩
    · exact ht.symm ▸ hs.readable
    · intro j k hj hk
      have hmine : ∀ k, (t.note_saving i true).saving k = true → k = i := by
        intro k hk
        by_contra hne
        rw [hothers k hne, hidle k hne] at hk
        cases hk
      rw [hmine j hj, hmine k hk]
    · intro m hm
      exact Nat.lt_of_lt_of_le (hs.path m (hpath ▸ hm)) hcreated
    · intro m hm
      obtain rfl : n = m := Option.some.inj (htemp.symm.trans hm)
      exact ⟨hn, hpath ▸ hfree⟩
  · apply around_same (t := t.note_saving i true) ht (fun k _ => congrFun hstale k) hothers
    intro k hk hsave
    rw [hidle k hk] at hsave
    cases hsave

/-- The replacement keeps the entries of the others and makes their copies stale. -/
theorem sound_renamed {n : ℕ} {data : Secrets} (hs : Sound s) (hmine : s.saving i = true)
    (hdistinct : ∀ j, j ≠ i → ∀ m ∈ names j, m ∉ names i) (htemp : s.temporary = some n)
    (hdata : s.content n = .data data) (hkept : ∀ m, m ∉ names i → data[m]? = s.entry m) :
    Sound ((s.rename i n).note_saving i false) ∧
    ∀ j, j ≠ i → Around names j s ((s.rename i n).note_saving i false) := by
  have hread : ((s.rename i n).note_saving i false).read = some data := by
    simp [Disk.read, Disk.rename, Disk.note_saving, hdata]
  have hidle : ∀ k, ((s.rename i n).note_saving i false).saving k = false := by
    intro k
    by_cases hk : k = i
    · simp [Disk.note_saving, hk]
    · rw [note_saving_others false k hk]
      by_contra h
      exact hk (hs.one k i (by simpa [Disk.rename] using h) hmine)
  constructor
  · refine ⟨⟨data, hread⟩, ?_, ?_, ?_⟩
    · intro j k hj
      rw [hidle j] at hj
      cases hj
    · intro m hm
      obtain rfl : n = m := Option.some.inj hm
      exact (hs.temporary n htemp).1
    · intro m hm
      cases hm
  · intro j hj
    refine ⟨?_, ?_, ?_, ?_⟩
    · intro m hm
      rw [Disk.entry, hread]
      exact hkept m (hdistinct j hj m hm)
    · intro hstale
      simp [Disk.rename, Disk.note_saving, hj] at hstale
    · rw [hidle j]
      by_contra h
      exact hj (hs.one j i (by simpa using Ne.symm h) hmine)
    · intro hsave
      exact absurd (hs.one j i hsave hmine) hj

theorem instances_honour (hdistinct : ∀ i j, i ≠ j → ∀ m ∈ names i, m ∉ names j) :
    (instances names).Honoured (orderlyWorld (ι := ι)) := by
  intro i o s r t hs hguard hw
  obtain ⟨horder, hw⟩ := hw
  have hsame : Sound s ∧ ∀ j, j ≠ i → Around names j s s :=
    ⟨hs, fun j _ => Around.refl j s⟩
  cases o with
  | exists_file =>
    obtain ⟨-, rfl⟩ := hw
    split
    · exact hsame
    · exact sound_note_read hs
  | read_file =>
    obtain ⟨-, rfl⟩ := hw
    exact sound_note_read hs
  | utcnow =>
    obtain rfl : t = s := hw
    exact hsame
  | token_bytes count =>
    obtain rfl : t = s := hw
    exact hsame
  | open_temporary =>
    obtain ⟨-, hidle⟩ := horder
    rcases hw with ⟨n, -, htemp, rfl⟩ | ⟨-, -, rfl⟩ | ⟨-, rfl⟩
    · obtain ⟨hn, hfree⟩ := hs.temporary n htemp
      exact sound_opened names hs (read_fill hfree) rfl (Nat.le_refl _) htemp hn hfree rfl rfl hidle
    · have hfree : s.path ≠ some s.created := by
        intro h
        exact Nat.lt_irrefl _ (hs.path _ h)
      exact sound_opened names hs (read_fill hfree) rfl (Nat.le_succ _) rfl (Nat.lt_succ_self _) hfree
        rfl rfl hidle
    · exact hsame
  | write n data =>
    obtain ⟨hmine, htemp, -⟩ := hguard
    rcases hw with ⟨-, -, rfl⟩ | ⟨-, -, rfl⟩ | ⟨-, rfl⟩
    · exact sound_filled names _ hs hmine htemp
    · exact sound_filled names _ hs hmine htemp
    · obtain ⟨hfilled, haround⟩ := sound_filled names .torn hs hmine htemp
      obtain ⟨hidle, haround'⟩ := sound_idle names i hfilled
      exact ⟨hidle, fun j hj => (haround j hj).trans (haround' j hj)⟩
  | replace =>
    obtain ⟨hmine, n, data, htemp, hdata, hkept⟩ := hguard
    rcases hw with ⟨m, -, htemp', rfl⟩ | ⟨-, rfl⟩
    · obtain rfl : n = m := Option.some.inj (htemp.symm.trans htemp')
      exact sound_renamed hs hmine (fun j hj => hdistinct j i hj) htemp hdata hkept
    · exact sound_idle names i hs

/-! ## One instance -/

/-- What instance `i` meets between its operations. -/
abbrev met (names : ι → List String) (i : ι) : World Files (Disk ι) :=
  (instances names).around orderlyWorld i

abbrev MetGuard (names : ι → List String) (i : ι) : StoreCall → Disk ι → Prop :=
  (instances names).guard i

variable {α : Type} {Q : Except SecretFailure α → Disk ι → Prop}

/-- One operation: what the world does, and then what the others do. -/
theorem wp_operation {o : StoreCall} {reply : o.Answer → Except SecretFailure α}
    (hguard : instanceGuard names i o s)
    (h : ∀ r u, Orderly i o s → fileWorld i o s r u →
      ∀ t, Around names i u t → Sound t → Q (reply r) t) :
    wp (met names i) (MetGuard names i) (.perform (F := Files) o reply) Q s := by
  apply Contract.wp_perform (C := instances names) hguard
  intro r u hw t haround ht
  exact h r u hw.1 hw.2 t haround ht

/-- An operation that looks at no file. -/
theorem wp_ask {o : StoreCall} (hguard : instanceGuard names i o s)
    (hstill : ∀ r u, fileWorld i o s r u → u = s) :
    wp (met names i) (MetGuard names i) (ask o)
      (fun r t => (∃ answer, r = .ok answer) ∧ Around names i s t ∧ Sound t) s := by
  apply wp_operation hguard
  intro r u _ hw t haround ht
  obtain rfl := hstill r u hw
  exact ⟨⟨r, rfl⟩, haround, ht⟩

theorem wp_utcnow : wp (met names i) (MetGuard names i) (ask .utcnow)
    (fun r t => (∃ answer, r = .ok answer) ∧ Around names i s t ∧ Sound t) s :=
  wp_ask trivial fun _ _ h => h

/-- What a save leaves behind: the copy is in the file if the save returned. -/
def Saved (names : ι → List String) (i : ι) (done : List String) (name : String) (data : Secrets)
    (r : Except SecretFailure Unit) (t : Disk ι) : Prop :=
  Copy names i done data t ∧ (r = .ok () → Copy names i (name :: done) data t)

section Save

variable {name : String}

theorem wp_replace (hcopy : Copy names i done data s₀) (hdone : ∀ m ∈ done, m ∈ names i)
    (hname : name ∈ names i) (hfresh : s₀.stale i = false)
    (hsaving : Saving i n (.data data) s₀ s) :
    wp (met names i) (MetGuard names i) (.perform (F := Files) .replace (Except.mapError .os))
      (Saved names i done name data) s := by
  have hmem : ∀ m ∈ name :: done, m ∈ names i := List.forall_mem_cons.mpr ⟨hname, hdone⟩
  apply wp_operation
  · refine ⟨hsaving.saving, n, data, hsaving.temporary, hsaving.content, ?_⟩
    intro m hm
    rw [Disk.entry, hsaving.read]
    exact hcopy.others hfresh m hm
  intro r u _ hw t haround ht
  rcases hw with ⟨k, rfl, htemp, rfl⟩ | ⟨⟨message, rfl⟩, rfl⟩
  · obtain rfl : n = k := Option.some.inj (hsaving.temporary.symm.trans htemp)
    have hnow : ((s.rename i n).note_saving i false).read = some data := by
      simp [Disk.read, Disk.rename, Disk.note_saving, hsaving.content]
    have hentry : ∀ m, data[m]? = ((s.rename i n).note_saving i false).entry m := by
      intro m
      rw [Disk.entry, hnow]
      rfl
    have hcopied : ∀ l, (∀ m ∈ l, m ∈ names i) → Copy names i l data t := by
      intro l hl
      refine ⟨ht, ?_, ?_, ?_⟩
      · intro hfresh' m _
        rw [Disk.entry, (haround.fresh hfresh').2]
        exact hentry m
      · intro m hm
        rw [haround.entries m (hl m hm)]
        exact hentry m
      · rw [haround.saving]
        simp [Disk.note_saving]
    exact ⟨hcopied done hdone, fun _ => hcopied (name :: done) hmem⟩
  · refine ⟨hcopy.failed (u := s.note_saving i false) hdone hsaving.read (fun _ => hfresh) ?_
      haround ht, fun h => nomatch h⟩
    simp [Disk.note_saving]

theorem wp_write (hcopy : Copy names i done data s₀) (hdone : ∀ m ∈ done, m ∈ names i)
    (hname : name ∈ names i) (hfresh : s₀.stale i = false) (hsaving : Saving i n .empty s₀ s) :
    wp (met names i) (MetGuard names i) (do
      .perform (F := Files) (.write n data) (Except.mapError .os)
      .perform (F := Files) .replace (Except.mapError .os))
      (Saved names i done name data) s := by
  have hpath := (hsaving.sound.temporary n hsaving.temporary).2
  apply wp_bind'.mpr
  apply wp_operation
  · exact ⟨hsaving.saving, hsaving.temporary, hsaving.content⟩
  intro r u _ hw t haround ht
  rcases hw with ⟨rfl, -, rfl⟩ | ⟨-, hfull, -⟩ | ⟨⟨message, rfl⟩, rfl⟩
  · have hfilled : Saving i n (.data data) s₀ (s.fill n (.data data)) := by
      have hsound := (sound_filled names (.data data) hsaving.sound hsaving.saving
        hsaving.temporary).1
      refine ⟨hsound, hsaving.saving, hsaving.temporary, ?_, ?_⟩
      · simp [Disk.fill]
      · exact (read_fill hpath).trans hsaving.read
    exact wp_replace hcopy hdone hname hfresh (hfilled.around haround ht)
  · exact absurd hsaving.content hfull
  · refine ⟨hcopy.failed hdone ?_ (fun _ => hfresh) ?_ haround ht, fun h => nomatch h⟩
    · exact (read_fill (c := .torn) hpath).trans hsaving.read
    · simp [Disk.note_saving]

/-- A save puts the copy in the place of the file or fails. -/
theorem wp_save (hcopy : Copy names i done data s) (hdone : ∀ m ∈ done, m ∈ names i)
    (hname : name ∈ names i) :
    wp (met names i) (MetGuard names i) (save data) (Saved names i done name data) s := by
  unfold save
  apply wp_bind'.mpr
  apply wp_operation (o := .open_temporary) trivial
  intro r u horder hw t haround ht
  rcases hw with ⟨n, rfl, htemp, rfl⟩ | ⟨rfl, -, rfl⟩ | ⟨⟨message, rfl⟩, rfl⟩
  · obtain ⟨hn, hfree⟩ := hcopy.sound.temporary n htemp
    have hopened : Saving i n .empty s ((s.fill n .empty).note_saving i true) := by
      refine ⟨?_, ?_, htemp, ?_, read_fill hfree⟩
      · exact (sound_opened names hcopy.sound (read_fill hfree) rfl (Nat.le_refl _)
          htemp hn hfree rfl rfl horder.2).1
      · simp [Disk.note_saving]
      · simp [Disk.note_saving, Disk.fill]
    exact wp_write hcopy hdone hname horder.1 (hopened.around haround ht)
  · have hfree : s.path ≠ some s.created := by
      intro h
      exact Nat.lt_irrefl _ (hcopy.sound.path _ h)
    have hopened : Saving i s.created .empty s
        ((s.create.fill s.created .empty).note_saving i true) := by
      have hnew : s.created < (s.create.fill s.created .empty).created := Nat.lt_succ_self _
      refine ⟨?_, ?_, rfl, ?_, read_fill hfree⟩
      · exact (sound_opened (t := s.create.fill s.created .empty) names hcopy.sound
          (read_fill hfree) rfl (Nat.le_succ _) rfl hnew hfree rfl rfl horder.2).1
      · simp [Disk.note_saving]
      · simp [Disk.note_saving, Disk.fill]
    exact wp_write hcopy hdone hname horder.1 (hopened.around haround ht)
  · exact ⟨hcopy.failed hdone rfl id hcopy.idle haround ht, fun h => nomatch h⟩

end Save

/-! ## A list of calls -/

variable {H : Hashes} {key : Bytes} {call : Call}

theorem wp_encrypted {value : String} :
    wp (met names i) (MetGuard names i) (encrypted H key value)
      (fun r t => (∃ cipher, r = .ok cipher ∧ decrypt H key cipher = .ok value) ∧
        Around names i s t ∧ Sound t) s := by
  unfold encrypted
  apply wp_bind'.mpr
  apply wp_post (wp_ask (o := .token_bytes 16) trivial fun _ _ h => h)
  intro r t ht
  obtain ⟨⟨nonce, rfl⟩, haround, hsound⟩ := ht
  exact ⟨⟨_, rfl, decrypt_encrypt H key nonce value⟩, haround, hsound⟩

/-- The change in memory looks at no file and makes the entry of its call. -/
theorem wp_new_entry (hs : Sound s) :
    wp (met names i) (MetGuard names i) (new_entry H key data call)
      (fun r t => (∀ e, r = .ok e → Made H key call e) ∧ Around names i s t ∧ Sound t) s := by
  cases call with
  | put name value days =>
    apply wp_bind'.mpr
    apply wp_post wp_utcnow
    intro r t ht
    obtain ⟨⟨now, rfl⟩, haround, hsound⟩ := ht
    apply wp_bind'.mpr
    apply wp_post wp_encrypted
    intro r u hu
    obtain ⟨⟨cipher, rfl, hvalue⟩, haround', hsound'⟩ := hu
    refine ⟨?_, haround.trans haround', hsound'⟩
    intro e he
    obtain rfl := Except.ok.inj he
    exact ⟨_, cipher, rfl, rfl, rfl, hvalue⟩
  | put_reference name env_var days =>
    apply wp_bind'.mpr
    apply wp_post wp_utcnow
    intro r t ht
    obtain ⟨⟨now, rfl⟩, haround, hsound⟩ := ht
    refine ⟨?_, haround, hsound⟩
    intro e he
    obtain rfl := Except.ok.inj he
    exact ⟨_, rfl, rfl, rfl⟩
  | rotate name new_value =>
    rw [new_entry]
    split
    · exact ⟨(fun _ h => nomatch h), Around.refl i s, hs⟩
    next entry _ =>
    apply wp_bind'.mpr
    apply wp_post wp_utcnow
    intro r t ht
    obtain ⟨⟨now, rfl⟩, haround, hsound⟩ := ht
    by_cases hstored : entry.source = "stored"
    · simp only [hstored, if_true]
      cases new_value with
      | none => exact ⟨(fun _ h => nomatch h), haround, hsound⟩
      | some value =>
        apply wp_bind'.mpr
        apply wp_post wp_encrypted
        intro r u hu
        obtain ⟨⟨cipher, rfl, hvalue⟩, haround', hsound'⟩ := hu
        refine ⟨?_, haround.trans haround', hsound'⟩
        intro e he
        obtain rfl := Except.ok.inj he
        exact ⟨_, rfl, fun _ => ⟨value, cipher, rfl, rfl, hvalue⟩⟩
    · simp only [hstored, if_false]
      refine ⟨?_, haround, hsound⟩
      intro e he
      obtain rfl := Except.ok.inj he
      exact ⟨_, rfl, fun h => absurd h hstored⟩
  | delete name =>
    rw [new_entry]
    split
    · exact ⟨(fun _ h => nomatch h), Around.refl i s, hs⟩
    · refine ⟨?_, Around.refl i s, hs⟩
      intro e he
      exact (Except.ok.inj he).symm

/-- The call has returned `x` and made an entry that the copy holds. -/
def Effective (H : Hashes) (key : Bytes) (data : Secrets) (c : Call) (x : Returned) : Prop :=
  ∀ r, x = .ok r → ∃ e, Made H key c e ∧ r = e.map (SecretEntry.record c.name) ∧
    data[c.name]? = e

/-- What one call leaves behind. -/
structure Called (names : ι → List String) (H : Hashes) (key : Bytes) (i : ι)
    (done : List String) (data : Secrets) (c : Call) (data' : Secrets) (x : Returned)
    (t : Disk ι) : Prop where
  copy : Copy names i done data' t
  saved : ∀ r, x = .ok r → Copy names i (c.name :: done) data' t
  effect : Effective H key data' c x
  kept : ∀ m ∈ done, data'[m]? = data[m]?

theorem wp_call (hcopy : Copy names i done data s) (hdone : ∀ m ∈ done, m ∈ names i)
    (hname : call.name ∈ names i) (hnew : call.name ∉ done) :
    wp (met names i) (MetGuard names i) (SecretStore.call H key call data)
      (fun r t => ∃ data' x, r = .ok (data', x) ∧ Called names H key i done data call data' x t)
      s := by
  unfold SecretStore.call
  apply wp_bind'.mpr
  apply wp_attempt.mpr
  apply wp_post (wp_new_entry hcopy.sound)
  intro r t ht
  obtain ⟨hmade, haround, hsound⟩ := ht
  have hcopy' := hcopy.around hdone haround hsound
  cases r with
  | error e =>
    exact ⟨data, .error e, rfl, hcopy', (fun _ h => nomatch h), (fun _ h => nomatch h),
      fun _ _ => rfl⟩
  | ok e =>
    have hkept : ∀ m ∈ done, (Secrets.set data call.name e)[m]? = data[m]? := by
      intro m hm
      have hne : call.name ≠ m := by
        rintro rfl
        exact hnew hm
      rw [getElem?_set, if_neg hne]
    apply wp_bind'.mpr
    apply wp_attempt.mpr
    apply wp_post (wp_save (hcopy'.set hname hnew) hdone hname)
    intro r u hu
    obtain ⟨hfailed, hsaved⟩ := hu
    cases r with
    | error e' =>
      exact ⟨_, .error e', rfl, hfailed, (fun _ h => nomatch h), (fun _ h => nomatch h), hkept⟩
    | ok _ =>
      refine ⟨_, .ok _, rfl, hfailed, fun _ _ => hsaved rfl, ?_, hkept⟩
      intro r hr
      refine ⟨e, hmade e rfl, (Except.ok.inj hr).symm, ?_⟩
      rw [getElem?_set, if_pos rfl]

/-- What the file has of a call once the instance has gone on. -/
def InFile (H : Hashes) (key : Bytes) (t : Disk ι) (c : Call) (x : Returned) : Prop :=
  ∀ r, x = .ok r → ∃ e, Made H key c e ∧ r = e.map (SecretEntry.record c.name) ∧
    t.entry c.name = e

/-- The rest of the calls leaves what is done already in the file. -/
theorem wp_calls {cs : List Call} (hcopy : Copy names i done data s)
    (hdone : ∀ m ∈ done, m ∈ names i) (hnames : ∀ c ∈ cs, c.name ∈ names i)
    (hnodup : (cs.map Call.name).Nodup) (hnew : ∀ c ∈ cs, c.name ∉ done) :
    wp (met names i) (MetGuard names i) (calls H key cs data)
      (fun r t => ∀ xs, r = .ok xs → List.Forall₂ (InFile H key t) cs xs ∧
        ∀ m ∈ done, t.entry m = data[m]?) s := by
  induction cs generalizing data done s with
  | nil =>
    intro xs hxs
    obtain rfl := Except.ok.inj hxs
    exact ⟨.nil, fun m hm => (hcopy.done m hm).symm⟩
  | cons c cs ih =>
    obtain ⟨hfirst, hrest⟩ := List.nodup_cons.mp hnodup
    have hcnames := hnames c List.mem_cons_self
    have hnames' : ∀ d ∈ cs, d.name ∈ names i := fun d hd => hnames d (List.mem_cons_of_mem c hd)
    have hnew' : ∀ d ∈ cs, d.name ∉ done := fun d hd => hnew d (List.mem_cons_of_mem c hd)
    apply wp_bind'.mpr
    apply wp_post (wp_call hcopy hdone hcnames (hnew c List.mem_cons_self))
    intro r t ht
    obtain ⟨data', x, rfl, hcalled⟩ := ht
    apply wp_bind'.mpr
    cases x with
    | error e =>
      apply wp_post (ih hcalled.copy hdone hnames' hrest hnew')
      intro r u hu
      cases r with
      | error e' => exact fun _ h => nomatch h
      | ok xs =>
        intro ys hys
        obtain rfl := Except.ok.inj hys
        obtain ⟨hall, hkept⟩ := hu xs rfl
        exact ⟨.cons (fun _ h => nomatch h) hall,
          fun m hm => (hkept m hm).trans (hcalled.kept m hm)⟩
    | ok returned =>
      have hadded : ∀ m ∈ c.name :: done, m ∈ names i :=
        List.forall_mem_cons.mpr ⟨hcnames, hdone⟩
      have hfresh : ∀ d ∈ cs, d.name ∉ c.name :: done := by
        intro d hd hmem
        rcases List.mem_cons.mp hmem with heq | hmem
        · exact hfirst (heq ▸ List.mem_map_of_mem hd)
        · exact hnew' d hd hmem
      apply wp_post (ih (hcalled.saved _ rfl) hadded hnames' hrest hfresh)
      intro r u hu
      cases r with
      | error e' => exact fun _ h => nomatch h
      | ok xs =>
        intro ys hys
        obtain rfl := Except.ok.inj hys
        obtain ⟨hall, hkept⟩ := hu xs rfl
        refine ⟨.cons ?_ hall, ?_⟩
        · intro r hr
          obtain ⟨e, hmade, hreturned, hdata⟩ := hcalled.effect r hr
          exact ⟨e, hmade, hreturned, (hkept c.name List.mem_cons_self).trans hdata⟩
        · intro m hm
          exact (hkept m (List.mem_cons_of_mem _ hm)).trans (hcalled.kept m hm)

/-- What an instance takes in when it is opened is what the file has. -/
theorem wp_load (hidle : s.saving i = false) :
    wp (met names i) (MetGuard names i) load
      (fun r t => ∀ data, r = .ok data → Copy names i [] data t) s := by
  have hread : ∀ u v data, u.read = some data → u.saving i = false → Around names i u v →
      Sound v → Copy names i [] data v := by
    intro u v data hu hsaving haround hv
    refine ⟨hv, ?_, (fun m hm => nomatch hm), haround.saving.trans hsaving⟩
    intro hfresh m _
    rw [Disk.entry, (haround.fresh hfresh).2, hu]
    rfl
  unfold load
  apply wp_bind'.mpr
  apply wp_operation (o := .exists_file) trivial
  intro r u _ hw t haround ht
  obtain ⟨hr, rfl⟩ := hw
  cases r with
  | false =>
    have hpath : s.path = none := Option.isNone_iff_eq_none.mp (by simpa using hr.symm)
    intro data hdata
    obtain rfl := Except.ok.inj hdata
    have hempty : (s.note_read i).read = some ∅ := by simp [Disk.read, Disk.note_read, hpath]
    exact hread (s.note_read i) t _ hempty hidle haround ht
  | true =>
    apply wp_operation (o := .read_file) trivial
    intro r v _ hw w haround' hsound
    obtain ⟨htrue, rfl⟩ := hw
    intro data hdata
    cases r with
    | error e => cases hdata
    | ok data' =>
      obtain rfl := Except.ok.inj hdata
      exact hread (t.note_read i) w _ (htrue data' rfl) (haround.saving.trans hidle) haround'
        hsound

theorem wp_instance {cs : List Call} (hidle : s.saving i = false)
    (hnames : ∀ c ∈ cs, c.name ∈ names i) (hnodup : (cs.map Call.name).Nodup) :
    wp (met names i) (MetGuard names i) (instance_calls H key cs)
      (fun r t => ∀ xs, r = .ok xs → List.Forall₂ (InFile H key t) cs xs) s := by
  unfold instance_calls
  apply wp_bind'.mpr
  apply wp_post (wp_load hidle)
  intro r t ht
  cases r with
  | error e => exact fun _ h => nomatch h
  | ok data =>
    apply wp_post (wp_calls (ht data rfl) (fun m hm => nomatch hm) hnames hnodup
      (fun _ _ h => nomatch h))
    intro r u hu xs hxs
    exact (hu xs hxs).1

end Contract

section Updates

variable {ι : Type}

theorem shown_of_inFile {H : Hashes} {key : Bytes} {t : Disk ι} {data : Secrets} {c : Call}
    {x : Returned} (h : InFile H key t c x) (hread : t.read = some data) :
    ∀ r, x = .ok r → Shown H key data c r := by
  intro r hr
  obtain ⟨e, hmade, rfl, hentry⟩ := h r hr
  rw [Disk.entry, hread] at hentry
  exact shown_of_made hmade hentry

/-- The instances and the calls each of them has still to make. -/
abbrev Instances (ι : Type) :=
  Pool (fun _ : ι => Files) (fun _ => SecretFailure) (fun _ => List Returned)

/-- Each instance is opened and makes its calls. -/
def opened (H : Hashes) (key : Bytes) (lists : ι → List Call) : Instances ι :=
  fun i => instance_calls H key (lists i)

variable [DecidableEq ι]

/-- Where every save begins with a copy that no other instance has made stale and while no
other instance is saving, a store opened after all calls shows the effect of each. -/
theorem updates_kept (H : Hashes) (key : Bytes) (lists : ι → List Call) (hlists : Distinct lists)
    {s t : Disk ι} (hs : Start s) {qs : Instances ι}
    (hrun : Interleaved (orderlyWorld (ι := ι)) s (opened H key lists) t qs)
    {results : ι → List Returned} (hended : ∀ i, qs i = .pure (results i)) :
    ∃ data, t.read = some data ∧
      ∀ i, List.Forall₂ (fun c x => ∀ r, x = .ok r → Shown H key data c r) (lists i) (results i) := by
  let names : ι → List String := fun i => (lists i).map Call.name
  have hstart : (instances names).Holds orderlyWorld
      (fun i r u => ∀ xs, r = .ok xs → List.Forall₂ (InFile H key u) (lists i) xs) s
      (opened H key lists) := by
    refine ⟨start_sound hs, ?_⟩
    intro i u hrely _
    have hrely' : Around names i s u := hrely
    exact wp_instance (hrely'.saving.trans (hs.idle i)) (fun c hc => List.mem_map_of_mem hc)
      (hlists.within i)
  have hholds := hstart.run (instances_honour hlists.between) hrun
  obtain ⟨data, hread⟩ := (show Sound t from hholds.invariant).readable
  refine ⟨data, hread, ?_⟩
  intro i
  have hresults : List.Forall₂ (InFile H key t) (lists i) (results i) :=
    hholds.ended (r := .ok (results i)) (hended i) (results i) rfl
  exact hresults.imp fun c x h => shown_of_inFile h hread

end Updates

/-! ## Two instances -/

def exampleKey : Bytes := [107, 101, 121]

def encKey : Bytes :=
  [192, 212, 241, 83, 158, 171, 165, 60, 93, 209, 105, 67, 18, 138, 4, 69, 173, 108, 39, 122, 134,
    26, 228, 252, 225, 248, 165, 176, 166, 141, 233, 197]

def macKey : Bytes :=
  [187, 30, 180, 201, 104, 18, 16, 9, 136, 39, 130, 128, 78, 243, 10, 185, 131, 150, 180, 219, 119,
    58, 100, 144, 214, 234, 182, 24, 225, 255, 72, 38]

def firstBlock : Bytes :=
  [37, 76, 146, 222, 153, 107, 31, 85, 134, 199, 193, 85, 130, 31, 236, 186, 78, 122, 86, 217, 240,
    178, 52, 204, 210, 130, 114, 46, 157, 113, 151, 149]

def macOfOne : Bytes :=
  [1, 205, 158, 159, 243, 157, 131, 135, 141, 170, 109, 9, 96, 197, 89, 118, 215, 212, 135, 185, 98,
    24, 140, 141, 101, 131, 67, 146, 67, 194, 29, 196]

def macOfTwo : Bytes :=
  [5, 152, 194, 221, 121, 36, 239, 185, 209, 178, 35, 252, 84, 150, 254, 45, 122, 43, 20, 156, 54,
    151, 60, 64, 109, 196, 4, 176, 241, 130, 111, 169]

/-- The hashes of what the example hashes. -/
def exampleHashes : Hashes where
  sha256 := fun message => if message[8]? = some 101 then encKey else macKey
  hmac := fun key message =>
    if key = encKey then firstBlock
    else if message.getLast? = some 20 then macOfOne else macOfTwo
  hmac_length := by
    intro key message
    split
    · rfl
    · split <;> rfl

def exampleCalls : Bool → List Call
  | false => [.put "SMTP_PASSWORD" "1" none]
  | true => [.put "API_TOKEN" "2" none]

theorem exampleCalls_distinct : Distinct exampleCalls := by
  constructor
  · decide
  · decide

/-- There is no file yet. -/
def noFile : Disk Bool where
  path := none
  temporary := none
  content := fun _ => .empty
  created := 0
  stale := fun _ => false
  saving := fun _ => false

theorem noFile_start : Start noFile :=
  ⟨⟨∅, rfl⟩, fun _ => rfl, fun _ h => (nomatch h), fun _ h => (nomatch h)⟩

def serve (i : Bool) (o : Files.Op) (s : Disk Bool) : Files.Reply o × Disk Bool :=
  match o with
  | .exists_file => (s.path.isSome, if s.path.isSome then s else s.note_read i)
  | .read_file => (match s.read with
      | some data => .ok data
      | none => .error "Expecting value", s.note_read i)
  | .utcnow => ("2026-01-01T00:00:00+00:00", s)
  | .token_bytes count => (List.replicate count 0, s)
  | .open_temporary => match s.temporary with
      | some n => (.ok n, (s.fill n .empty).note_saving i true)
      | none => (.ok s.created, (s.create.fill s.created .empty).note_saving i true)
  | .write n data => match s.content n with
      | .empty => (.ok (), s.fill n (.data data))
      | _ => (.ok (), s.fill n .torn)
  | .replace => match s.temporary with
      | some n => (.ok (), (s.rename i n).note_saving i false)
      | none => (.error "No such file or directory", s.note_saving i false)

theorem fileWorld_serve (i : Bool) (o : Files.Op) (s : Disk Bool) :
    fileWorld i o s (serve i o s).1 (serve i o s).2 := by
  cases o with
  | exists_file => exact ⟨rfl, rfl⟩
  | read_file =>
    refine ⟨?_, rfl⟩
    intro data h
    simp only [serve] at h
    cases hread : s.read with
    | none =>
      rw [hread] at h
      cases h
    | some data' =>
      rw [hread] at h
      exact congrArg some (Except.ok.inj h)
  | utcnow => rfl
  | token_bytes count => rfl
  | open_temporary =>
    simp only [serve]
    cases htemp : s.temporary with
    | some n => exact .inl ⟨n, rfl, htemp, rfl⟩
    | none => exact .inr (.inl ⟨rfl, htemp, rfl⟩)
  | write n data =>
    simp only [serve]
    cases hcontent : s.content n with
    | empty => exact .inl ⟨rfl, hcontent, rfl⟩
    | data other => exact .inr (.inl ⟨rfl, by rw [hcontent]; nofun, rfl⟩)
    | torn => exact .inr (.inl ⟨rfl, by rw [hcontent]; nofun, rfl⟩)
  | replace =>
    simp only [serve]
    cases htemp : s.temporary with
    | some n => exact .inl ⟨n, rfl, htemp, rfl⟩
    | none => exact .inr ⟨⟨_, rfl⟩, rfl⟩

abbrev Rest := SecretM (List Returned)

def acts (i : Bool) (n : ℕ) (p : Rest) (s : Disk Bool) : Rest × Disk Bool :=
  p.play (fun (_ : Unit) => serve i) (List.replicate n ()) s

theorem acts_interleaved (ps : Instances Bool) (s : Disk Bool) (i : Bool) (n : ℕ) :
    Interleaved (fileWorld (ι := Bool)) s ps (acts i n (ps i) s).2
      (Function.update ps i (acts i n (ps i) s).1) :=
  Interleaved.run i (steps_play (fun (_ : Unit) => fileWorld_serve i) _ _ _)

/-- What an instance that is done has returned. -/
def finished : Rest → Option (List Returned)
  | .pure xs => some xs
  | _ => none

theorem eq_pure_of_finished {p : Rest} {xs : List Returned} (h : finished p = some xs) :
    p = .pure xs := by
  cases p with
  | pure a => exact congrArg Prog.pure (Option.some.inj h)
  | raise e => cases h
  | call o k => cases h

def exampleInstances : Instances Bool := opened exampleHashes exampleKey exampleCalls

/-- Both are opened before either saves. -/
def firstOpened : Rest × Disk Bool := acts false 1 (exampleInstances false) noFile
def secondOpened : Rest × Disk Bool := acts true 1 (exampleInstances true) firstOpened.2
def firstSaved : Rest × Disk Bool := acts false 5 firstOpened.1 secondOpened.2
def secondSaved : Rest × Disk Bool := acts true 5 secondOpened.1 firstSaved.2

def exampleRecord (name : String) : SecretRecord where
  name := name
  source := "stored"
  version := 1
  created_at := "2026-01-01T00:00:00+00:00"
  rotated_at := "2026-01-01T00:00:00+00:00"
  rotation_interval_days := none
  env_var := none

def exampleResults : Bool → List Returned
  | false => [.ok (some (exampleRecord "SMTP_PASSWORD"))]
  | true => [.ok (some (exampleRecord "API_TOKEN"))]

theorem lost_facts : finished firstSaved.1 = some (exampleResults false) ∧
    finished secondSaved.1 = some (exampleResults true) ∧
    secondSaved.2.read.map (metadata · "SMTP_PASSWORD") =
      some (.error (.not_found "SMTP_PASSWORD")) := by
  decide +kernel

/-- Both calls return their record, and the first secret is not in the store. -/
theorem update_lost : Start noFile ∧ Distinct exampleCalls ∧
    ∃ (t : Disk Bool) (qs : Instances Bool),
      Interleaved (fileWorld (ι := Bool)) noFile exampleInstances t qs ∧
      (∀ i, qs i = .pure (exampleResults i)) ∧
      t.read.map (metadata · "SMTP_PASSWORD") = some (.error (.not_found "SMTP_PASSWORD")) := by
  have h₁ := acts_interleaved exampleInstances noFile false 1
  have h₂ := acts_interleaved (Function.update exampleInstances false firstOpened.1)
    firstOpened.2 true 1
  have h₃ := acts_interleaved (Function.update (Function.update exampleInstances false
    firstOpened.1) true secondOpened.1) secondOpened.2 false 5
  have h₄ := acts_interleaved (Function.update (Function.update (Function.update exampleInstances
    false firstOpened.1) true secondOpened.1) false firstSaved.1) firstSaved.2 true 5
  refine ⟨noFile_start, exampleCalls_distinct, secondSaved.2, _,
    ((h₁.trans h₂).trans h₃).trans h₄, ?_, lost_facts.2.2⟩
  intro i
  cases i with
  | false => exact eq_pure_of_finished lost_facts.1
  | true => exact eq_pure_of_finished lost_facts.2.1

/-! The second instance is opened after the first has saved. -/

def orderlyNow (i : Bool) (o : Files.Op) (s : Disk Bool) : Bool :=
  match o with
  | .open_temporary => !s.stale i && !s.saving (!i)
  | _ => true

theorem orderly_of_now {i : Bool} {o : Files.Op} {s : Disk Bool} (h : orderlyNow i o s = true) :
    Orderly i o s := by
  cases o with
  | open_temporary =>
    obtain ⟨hstale, hsaving⟩ := Bool.and_eq_true_iff.mp h
    refine ⟨by simpa using hstale, ?_⟩
    intro j hj
    obtain rfl : j = !i := by
      cases i <;> cases j <;> first | rfl | exact absurd rfl hj
    simpa using hsaving
  | exists_file | read_file | utcnow | token_bytes | write | replace => trivial

/-- Every operation of the next `n` is an orderly one. -/
def orderlyFor (i : Bool) : ℕ → Rest → Disk Bool → Bool
  | n + 1, .call o k, s =>
    orderlyNow i o s && orderlyFor i n (k (serve i o s).1) (serve i o s).2
  | _, _, _ => true

theorem acts_orderly {i : Bool} {n : ℕ} {p : Rest} {s : Disk Bool}
    (h : orderlyFor i n p s = true) :
    Steps (orderlyWorld i) s p (acts i n p s).2 (acts i n p s).1 := by
  induction n generalizing p s with
  | zero => cases p <;> exact .refl _ _
  | succ n ih =>
    cases p with
    | pure a => exact .refl _ _
    | raise e => exact .refl _ _
    | call o k =>
      obtain ⟨hnow, hrest⟩ := Bool.and_eq_true_iff.mp h
      exact .call ⟨orderly_of_now hnow, fileWorld_serve i o s⟩ (ih hrest)

def aloneFirst : Rest × Disk Bool := acts false 6 (exampleInstances false) noFile
def thenSecond : Rest × Disk Bool := acts true 7 (exampleInstances true) aloneFirst.2

theorem kept_facts : orderlyFor false 6 (exampleInstances false) noFile = true ∧
    orderlyFor true 7 (exampleInstances true) aloneFirst.2 = true ∧
    finished aloneFirst.1 = some (exampleResults false) ∧
    finished thenSecond.1 = some (exampleResults true) := by
  decide +kernel

theorem updates_kept_in_turn : ∃ data, thenSecond.2.read = some data ∧
    ∀ i, List.Forall₂ (fun c x => ∀ r, x = .ok r → Shown exampleHashes exampleKey data c r)
      (exampleCalls i) (exampleResults i) := by
  obtain ⟨horderly, horderly', hfirst, hsecond⟩ := kept_facts
  have h₁ := Interleaved.run (W := orderlyWorld (ι := Bool)) (p := exampleInstances) false
    (acts_orderly horderly)
  have h₂ := Interleaved.run (W := orderlyWorld (ι := Bool))
    (p := Function.update exampleInstances false aloneFirst.1) true (acts_orderly horderly')
  refine updates_kept exampleHashes exampleKey exampleCalls exampleCalls_distinct noFile_start
    (h₁.trans h₂) ?_
  intro i
  cases i with
  | false => exact eq_pure_of_finished hfirst
  | true => exact eq_pure_of_finished hsecond

end SecretUpdates
