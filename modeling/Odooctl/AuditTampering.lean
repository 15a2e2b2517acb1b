import Odooctl.AuditChains

/-!
# What verification says of a log that was tampered with

Whoever rewrites the two files of an audit log knows the tag of no text that the store has not
tagged. A log that verifies then holds the first of the entries that were appended, and at
least as many as the high-water mark counts.
-/
namespace AuditTampering

open PythonJson JsonText JsonWriting AuditLog AuditChains
open S3Objects (is_digest)

variable {a : Audit} {as es rest : List AuditEntry} {e b : AuditEntry} {p : String}

/-! ## What the store has tagged -/

/-- The texts of the high-water marks that follow the entries. -/
def mark_texts (a : Audit) : ℕ → List AuditEntry → List (List Char)
  | _, [] => []
  | n, e :: rest => mark_text (n + 1) (hash_entry a e e.prev_hash) :: mark_texts a (n + 1) rest

/-- The texts that were tagged when the entries were appended. -/
def issued (a : Audit) (as : List AuditEntry) : List (List Char) :=
  as.map (fun e => entry_text a e e.prev_hash) ++ mark_texts a 0 as

/-- The files hold no tag of a text that was not tagged, as far as verification looks for
one. -/
structure Unforged (a : Audit) (as : List AuditEntry) (log hwm : Option (List Char)) : Prop where
  entries : ∀ e ∈ load_chain log, e.current_hash = .str (hash_entry a e e.prev_hash) →
    entry_text a e e.prev_hash ∈ issued a as
  mark : ∀ d count, read_hwm hwm = some (.dict d) →
    int_of a ((get d "count").getD (.int 0)) = .ok count →
      str a ((get d "mac").getD (.str "")) =
        hwm_mac a count (str a ((get d "last_hash").getD (.str ""))) →
      mark_text count (str a ((get d "last_hash").getD (.str ""))) ∈ issued a as

/-- The texts that were tagged have different tags. -/
def CollisionFree (a : Audit) (as : List AuditEntry) : Prop :=
  ∀ x ∈ issued a as, ∀ y ∈ issued a as, a.tag x = a.tag y → x = y

theorem tag_ne_empty (text : List Char) : a.tag text ≠ "" := by
  intro h
  have hdigest := a.hexdigest text
  rw [h] at hdigest
  exact absurd hdigest (by decide)

theorem entry_text_issued (he : e ∈ as) : entry_text a e e.prev_hash ∈ issued a as :=
  List.mem_append_left _ (List.mem_map.mpr ⟨e, he, rfl⟩)

theorem links_succ (h : verify_from a p as = true) {i : ℕ} {l : String}
    (hl : (links a p as)[i + 1]? = some l) :
    ∃ e k, as[i]? = some e ∧ (links a p as)[i]? = some k ∧ LinkedAt a k e ∧
      l = hash_entry a e (.str k) := by
  have hlength : i < as.length := by
    have hbound := (List.getElem?_eq_some_iff.mp hl).1
    rw [length_links] at hbound
    omega
  have he := List.getElem?_eq_getElem hlength
  obtain ⟨k, hk, hlink, hnext⟩ := linked_at h he
  exact ⟨_, k, he, hk, hlink, Option.some.inj (hl.symm.trans hnext)⟩

/-- No hash of a chain occurs in it twice. -/
theorem links_inj (hwell : ∀ e ∈ as, WellFormed e) (hfree : CollisionFree a as)
    (h : verify_chain a as = true) {i j : ℕ} {l : String} (hi : (links a "" as)[i]? = some l)
    (hj : (links a "" as)[j]? = some l) : i = j := by
  induction i generalizing j l with
  | zero =>
    rw [links_zero] at hi
    obtain rfl := Option.some.inj hi
    cases j with
    | zero => rfl
    | succ j =>
      obtain ⟨e, k, -, -, -, htag⟩ := links_succ h hj
      exact absurd htag.symm (tag_ne_empty _)
  | succ i ih =>
    obtain ⟨e, k, he, hk, hlink, htag⟩ := links_succ h hi
    cases j with
    | zero =>
      rw [links_zero] at hj
      rw [← Option.some.inj hj] at htag
      exact absurd htag.symm (tag_ne_empty _)
    | succ j =>
      obtain ⟨b, k', hb, hk', hlink', htag'⟩ := links_succ h hj
      have he := List.mem_of_getElem? he
      have hb := List.mem_of_getElem? hb
      have hissued := entry_text_issued (a := a) he
      have hissued' := entry_text_issued (a := a) hb
      rw [hlink.prev] at hissued
      rw [hlink'.prev] at hissued'
      have htext := hfree _ hissued _ hissued' (htag.symm.trans htag')
      have hcontent := content_of_text (hwell e he) (hwell b hb) hlink.prev hlink'.prev htext
      have hprev := content_field (keys_nodup b) hcontent List.mem_cons_self List.mem_cons_self
      rw [hlink.prev, hlink'.prev] at hprev
      obtain rfl : k = k' := Json.str.inj (eq_str_of_content hprev)
      rw [ih hk hk']

/-- A text of an entry is the text of one that was appended. -/
theorem issued_entry {text : List Char} (h : text ∈ issued a as) (hhead : text.head? = some '{') :
    ∃ b ∈ as, entry_text a b b.prev_hash = text := by
  rcases List.mem_append.mp h with h | h
  · obtain ⟨b, hb, hbtext⟩ := List.mem_map.mp h
    exact ⟨b, hb, hbtext⟩
  · have hmark : ∀ n, ∀ es : List AuditEntry, ∀ text ∈ mark_texts a n es,
        text.head? ≠ some '{' := by
      intro n es
      induction es generalizing n with
      | nil => exact fun _ h => by cases h
      | cons b rest ih =>
        intro text htext
        rcases List.mem_cons.mp htext with rfl | htext
        · obtain ⟨c, cs, hint, hc⟩ := intText_head ((n : ℤ) + 1)
          rw [mark_text, hint, List.cons_append, List.head?_cons, Ne, Option.some.injEq]
          rintro rfl
          rcases hc with hc | hc
          · exact absurd hc (by decide)
          · exact absurd hc (by decide)
        · exact ih (n + 1) text htext
    exact absurd hhead (hmark 0 as text h)

/-! ## Verified logs -/

/-- Entries that follow a link of the chain are the next ones of the chain. -/
theorem follows (hwell : ∀ e ∈ as, WellFormed e) (hfree : CollisionFree a as)
    (hchain : verify_chain a as = true) (hes : ∀ e ∈ es, WellFormed e ∧
      (e.current_hash = .str (hash_entry a e e.prev_hash) →
        entry_text a e e.prev_hash ∈ issued a as))
    {n : ℕ} (hp : (links a "" as)[n]? = some p) (hverify : verify_from a p es = true) :
    n + es.length ≤ as.length ∧ List.Forall₂ (Same a) es ((as.drop n).take es.length) := by
  induction es generalizing n p with
  | nil =>
    have hbound := (List.getElem?_eq_some_iff.mp hp).1
    rw [length_links] at hbound
    exact ⟨by simpa using Nat.le_of_lt_succ hbound, .nil⟩
  | cons e rest ih =>
    obtain ⟨hlink, hrest⟩ := verify_from_cons.mp hverify
    obtain ⟨hewell, hissued⟩ := hes e List.mem_cons_self
    rw [hlink.prev] at hissued
    obtain ⟨b, hb, htext⟩ := issued_entry (hissued hlink.current) (by
      rw [entry_text]
      exact compact_head _)
    obtain ⟨m, hm⟩ := List.getElem?_of_mem hb
    obtain ⟨l, hl, hlinked, hnext⟩ := linked_at hchain hm
    rw [hlinked.prev] at htext
    have hcontent := content_of_text hewell (hwell b hb) hlink.prev hlinked.prev htext.symm
    have hprev := content_field (keys_nodup b) hcontent List.mem_cons_self List.mem_cons_self
    rw [hlink.prev, hlinked.prev] at hprev
    obtain rfl : p = l := Json.str.inj (eq_str_of_content hprev.symm).symm
    obtain rfl : n = m := links_inj hwell hfree hchain hp hl
    have hhash : hash_entry a e (.str p) = hash_entry a b (.str p) := by
      rw [hash_entry, hash_entry, htext]
    rw [← hhash] at hnext
    obtain ⟨hlength, hsame⟩ := ih (fun e he => hes e (List.mem_cons_of_mem _ he)) hnext hrest
    obtain ⟨hlt, hget⟩ := List.getElem?_eq_some_iff.mp hm
    have hdrop : as.drop n = b :: as.drop (n + 1) := by
      rw [List.drop_eq_getElem_cons hlt, hget]
    refine ⟨by simp only [List.length_cons]; omega, ?_⟩
    rw [hdrop, List.length_cons, List.take_succ_cons]
    refine .cons ⟨hcontent, ?_⟩ hsame
    rw [hlink.current, hlinked.current, hhash]

theorem intText_inj {i j : ℤ} (h : intText i = intText j) : i = j := by
  have hi := number_intText i stops_nil
  have hj := number_intText j stops_nil
  rw [h, hj] at hi
  exact (Json.int.inj (Prod.mk.inj (Option.some.inj hi)).1).symm

theorem colon_ne_digit {c : Char} (h : c.isDigit = true ∨ c = '-') : c ≠ ':' := by
  rintro rfl
  rcases h with h | h
  · exact absurd h (by decide)
  · exact absurd h (by decide)

theorem colon_not_mem_intText (i : ℤ) : ':' ∉ intText i := by
  intro h
  cases i with
  | ofNat n => exact colon_ne_digit (.inl (isDigit_toDigits _ h)) rfl
  | negSucc n =>
    rcases List.mem_cons.mp h with h | h
    · exact absurd h (by decide)
    · exact colon_ne_digit (.inl (isDigit_toDigits _ h)) rfl

theorem colon_not_mem_digest {d : String} (h : is_digest d = true) : ':' ∉ d.toList := by
  rw [is_digest, Bool.and_eq_true, List.all_eq_true] at h
  intro hmem
  exact absurd (h.2 ':' hmem) (by decide)

/-- A mark's text tells its count and its hash. -/
theorem mark_text_inj {i j : ℤ} {d l : String} (hd : is_digest d = true)
    (h : mark_text i d = mark_text j l) : i = j ∧ d = l := by
  obtain ⟨hint, -, hlast⟩ := (List.append_cons_inj_of_notMem (colon_not_mem_intText i)
    (colon_not_mem_digest hd)).mp h
  exact ⟨intText_inj hint, String.toList_inj.mp hlast⟩

theorem mem_mark_texts {n : ℕ} {text : List Char} (h : text ∈ mark_texts a n as) :
    ∃ i, ∃ e, as[i]? = some e ∧ text = mark_text (n + i + 1 : ℕ) (hash_entry a e e.prev_hash) := by
  induction as generalizing n with
  | nil => cases h
  | cons e rest ih =>
    rcases List.mem_cons.mp h with rfl | h
    · exact ⟨0, e, rfl, by simp⟩
    · obtain ⟨i, b, hb, htext⟩ := ih h
      refine ⟨i + 1, b, hb, ?_⟩
      rw [htext]
      congr 2
      omega

/-- The count of a mark that was tagged is that of an entry that was appended. -/
theorem issued_mark {count : ℤ} {l : String} (h : mark_text count l ∈ issued a as) :
    ∃ i e, as[i]? = some e ∧ count = (i + 1 : ℕ) ∧ l = hash_entry a e e.prev_hash := by
  rcases List.mem_append.mp h with h | h
  · obtain ⟨e, -, htext⟩ := List.mem_map.mp h
    have hhead : (mark_text count l).head? = some '{' := by
      rw [← htext, entry_text]
      exact compact_head _
    obtain ⟨c, cs, hint, hc⟩ := intText_head count
    rw [mark_text, hint, List.cons_append, List.head?_cons, Option.some.injEq] at hhead
    subst hhead
    rcases hc with hc | hc
    · exact absurd hc (by decide)
    · exact absurd hc (by decide)
  · obtain ⟨i, e, he, htext⟩ := mem_mark_texts h
    obtain ⟨hcount, hlast⟩ := mark_text_inj (a.hexdigest _) htext.symm
    exact ⟨i, e, he, by rw [← hcount]; simp, hlast.symm⟩

/-- A log that verifies holds the first of the entries that were appended, at least as many
as the high-water mark beside it counts. -/
theorem verified_prefix {log hwm : Option (List Char)} (hwell : ∀ e ∈ as, WellFormed e)
    (hchain : verify_chain a as = true) (hfree : CollisionFree a as)
    (hunforged : Unforged a as log hwm) (hverify : verify a log hwm = .ok true) :
    ∃ k ≤ as.length, List.Forall₂ (Same a) (load_chain log) (as.take k) ∧
      ∀ d, read_hwm hwm = some (.dict d) →
        ∃ count : ℕ, int_of a ((get d "count").getD (.int 0)) = .ok count ∧
          0 < count ∧ count ≤ k := by
  unfold verify at hverify
  split at hverify
  · cases hverify
  next hloaded =>
  rw [Bool.not_eq_false] at hloaded
  obtain ⟨hlength, hsame⟩ := follows hwell hfree hchain
    (fun e he => ⟨wellFormed_of_load he, hunforged.entries e he⟩) links_zero hloaded
  rw [Nat.zero_add] at hlength
  rw [List.drop_zero] at hsame
  refine ⟨(load_chain log).length, hlength, hsame, ?_⟩
  intro d hd
  rw [hd] at hverify
  obtain ⟨count, hcount, hverify⟩ := CheckedLists.bind_eq_ok.mp hverify
  obtain ⟨same, hcompare, hverify⟩ := CheckedLists.bind_eq_ok.mp hverify
  have hboth := Except.ok.inj hverify
  rw [Bool.and_eq_true] at hboth
  obtain ⟨rfl, hends⟩ := hboth
  have hmac : str a ((get d "mac").getD (.str "")) =
      hwm_mac a count (str a ((get d "last_hash").getD (.str ""))) := by
    unfold compare_digest at hcompare
    split at hcompare
    · simpa using Except.ok.inj hcompare
    · cases hcompare
  obtain ⟨i, e, -, rfl, -⟩ := issued_mark (hunforged.mark d count hd hcount hmac)
  refine ⟨i + 1, hcount, Nat.succ_pos i, ?_⟩
  unfold ends_at at hends
  rw [Bool.and_eq_true, decide_eq_true_eq] at hends
  exact_mod_cast hends.1

theorem example_collisionFree : CollisionFree exampleAudit [backupEntry, deployEntry] := by
  have htags : ((issued exampleAudit [backupEntry, deployEntry]).map exampleTag).Nodup := by
    decide +kernel
  exact fun x hx y hy heq => List.inj_on_of_nodup_map htags hx hy heq

/-- The log as the first append left it, put back with its mark after the second one. -/
theorem oldLog_prefix : ∃ k ≤ 2,
    List.Forall₂ (Same exampleAudit) (load_chain (some (log_text exampleAudit [backupEntry])))
      ([backupEntry, deployEntry].take k) ∧
    ∀ d, read_hwm (some (mark_file exampleAudit 1 backupHash)) = some (.dict d) →
      ∃ count : ℕ, int_of exampleAudit ((get d "count").getD (.int 0)) = .ok count ∧ 0 < count ∧
        count ≤ k := by
  have hwell : ∀ e ∈ [backupEntry, deployEntry], WellFormed e := by
    intro e he
    rcases List.mem_pair.mp he with rfl | rfl
    · exact wellFormed_exampleEntry _ _ _ _ _
    · exact wellFormed_exampleEntry _ _ _ _ _
  have hfirst : ∀ e ∈ [backupEntry], WellFormed e :=
    fun e he => hwell e (List.mem_cons.mpr (.inl (List.mem_singleton.mp he)))
  have hload : load_chain (some (log_text exampleAudit [backupEntry])) =
      [respelled exampleAudit backupEntry] := load_chain_log hfirst rfl
  obtain ⟨hlink, -⟩ := verify_from_cons.mp verify_example
  have hhash : hash_entry exampleAudit backupEntry (.str "") = backupHash :=
    (Json.str.inj hlink.current).symm
  have hchain : verify_chain exampleAudit [backupEntry] = true := verify_from_cons.mpr ⟨hlink, rfl⟩
  have hread := read_mark_file (a := exampleAudit) 1 backupHash
  refine verified_prefix hwell verify_example example_collisionFree ⟨?_, ?_⟩ ?_
  · intro e he _
    rw [hload, List.mem_singleton] at he
    subst he
    change entry_text exampleAudit (respelled exampleAudit backupEntry) (.str "") ∈ _
    rw [text_respelled]
    exact entry_text_issued (e := backupEntry) List.mem_cons_self
  · intro d count hd hcount _
    rw [hread] at hd
    obtain rfl := Json.dict.inj (Option.some.inj hd)
    obtain rfl : (1 : ℤ) = count := Except.ok.inj hcount
    apply List.mem_append_right
    apply List.mem_cons.mpr
    left
    change mark_text 1 backupHash =
      mark_text ((0 : ℕ) + 1) (hash_entry exampleAudit backupEntry (.str ""))
    rw [hhash]
    rfl
  · apply verify_log hfirst rfl hchain
    intro text htext
    obtain rfl := Option.some.inj htext
    refine ⟨0, backupEntry, rfl, ?_⟩
    change _ = mark_file exampleAudit 1 (hash_entry exampleAudit backupEntry (.str ""))
    rw [hhash]

end AuditTampering
