import Odooctl.AuditLog
import Odooctl.CheckedLists

/-!
# Chains of audit entries

What the text that an entry's hash is made of says of the entry, how the entries of a chain
hang together, and that the lines of a log are read back as the entries they were written for.
-/
namespace AuditChains

open PythonJson JsonText JsonWriting AuditLog
open S3Objects (is_digest)

variable {a : Audit} {as es rest : List AuditEntry} {e b : AuditEntry} {p : String}
  {items items' : Items} {key : String} {v v' : Json} {fl : Floats}

/-! ## Fields of what a text says -/

theorem get_eq_some_iff (h : (items.map Prod.fst).Nodup) :
    get items key = some v ↔ (key, v) ∈ items := by
  unfold PythonJson.get
  constructor
  · intro hget
    obtain ⟨m, hm, rfl⟩ := Option.map_eq_some_iff.mp hget
    have hkey : m.1 = key := by simpa using List.find?_some hm
    rw [← hkey]
    exact List.mem_of_find?_eq_some hm
  · intro hmem
    cases hfound : items.find? fun item => item.1 = key with
    | none =>
      have hnone := List.find?_eq_none.mp hfound (key, v) hmem
      simp at hnone
    | some m =>
      have hkey : m.1 = key := by simpa using List.find?_some hfound
      have hsame := List.inj_on_of_nodup_map h (List.mem_of_find?_eq_some hfound) hmem hkey
      rw [hsame]
      rfl

theorem sortItems_map (items : Items) :
    sortItems items = items.map fun m => (m.1, sort_keys m.2) := by
  induction items with
  | nil => rfl
  | cons m items ih => simp [sortItems, ih]

/-- The fields of a mapping's content are the contents of its fields. -/
theorem mem_content :
    (key, v) ∈ respellItems fl ((sortItems items).insertionSort fun x y => x.1 ≤ y.1) ↔
      ∃ w, (key, w) ∈ items ∧ content fl w = v := by
  have hperm := List.perm_insertionSort (fun x y => x.1 ≤ y.1) (sortItems items)
  rw [respellItems_map, List.mem_map]
  constructor
  · rintro ⟨m, hm, heq⟩
    rw [hperm.mem_iff, sortItems_map] at hm
    obtain ⟨m', hm', rfl⟩ := List.mem_map.mp hm
    obtain ⟨rfl, rfl⟩ := Prod.mk.inj heq
    exact ⟨m'.2, hm', rfl⟩
  · rintro ⟨w, hw, rfl⟩
    refine ⟨(key, sort_keys w), ?_, rfl⟩
    rw [hperm.mem_iff, sortItems_map]
    exact List.mem_map.mpr ⟨(key, w), hw, rfl⟩

/-- Mappings with one content have fields with one content. -/
theorem content_field (hitems' : (items'.map Prod.fst).Nodup)
    (h : content fl (.dict items) = content fl (.dict items')) (hv : (key, v) ∈ items)
    (hv' : (key, v') ∈ items') : content fl v = content fl v' := by
  simp only [content, sort_keys, respell, Json.dict.injEq] at h
  have hmem : (key, content fl v) ∈
      respellItems fl ((sortItems items).insertionSort fun x y => x.1 ≤ y.1) :=
    mem_content.mpr ⟨v, hv, rfl⟩
  rw [h] at hmem
  obtain ⟨w, hw, hcontent⟩ := mem_content.mp hmem
  have hsame := List.inj_on_of_nodup_map hitems' hw hv' rfl
  rw [← hcontent, (Prod.mk.inj hsame).2]

theorem eq_str_of_content {s : String} (h : content fl v = content fl (.str s)) : v = .str s := by
  cases v with
  | str t =>
    simp only [content, sort_keys, respell, Json.str.injEq] at h
    rw [h]
  | null | bool | int | float | list | dict => simp [content, sort_keys, respell] at h

theorem asStr_eq {s : String} (h : v.asStr = some s) : v = .str s := by
  cases v with
  | str t => rw [Option.some.inj h]
  | null | bool | int | float | list | dict => cases h

/-! ## Entries -/

/-- Every mapping in an entry has each key once, as Python's mappings do. -/
def WellFormed (e : AuditEntry) : Prop := Distinct (.dict e.record)

/-- Two entries that say the same, in the same place of a chain. -/
structure Same (a : Audit) (e b : AuditEntry) : Prop where
  fields : content a.floats (.dict e.to_dict) = content a.floats (.dict b.to_dict)
  hash : e.current_hash = b.current_hash

theorem keys_nodup (e : AuditEntry) : (e.to_dict.map Prod.fst).Nodup := by
  simp [AuditEntry.to_dict]

theorem WellFormed.to_dict (h : WellFormed e) : Distinct (.dict e.to_dict) := by
  refine ⟨?_, keys_nodup e⟩
  rw [distinctItems_iff]
  intro m hm
  exact distinctItems_iff.mp h.1 m (List.mem_append_left _ hm)

theorem distinct_get {d : Items} (hd : Distinct (.dict d)) (h : get d key = some v) :
    Distinct v := by
  rw [get_eq_some_iff hd.2] at h
  exact distinctItems_iff.mp hd.1 _ h

theorem distinct_getD {d : Items} (hd : Distinct (.dict d)) (hv : Distinct v) :
    Distinct ((get d key).getD v) := by
  cases h : get d key with
  | none => exact hv
  | some w => exact distinct_get hd h

/-- What is loaded is well formed, whatever the log holds. -/
theorem wellFormed_of_load {log : Option (List Char)} (he : e ∈ load_chain log) :
    WellFormed e := by
  obtain ⟨line, -, hline⟩ := List.mem_filterMap.mp he
  obtain ⟨j, hloads, hj⟩ := Option.bind_eq_some_iff.mp hline
  have hdistinct := distinct_loads hloads
  cases j with
  | dict d =>
    simp only [from_dict, Option.bind_eq_bind, Option.bind_eq_some_iff] at hj
    obtain ⟨actor, hactor, action, haction, target, htarget, outcome, houtcome, timestamp,
      htimestamp, hentry⟩ := hj
    obtain rfl := Option.some.inj hentry
    have hstr : ∀ s, Distinct (.str s) := fun _ => trivial
    refine ⟨⟨?_, ?_, ?_, ?_, ?_, ?_, ?_, ?_, ?_, trivial⟩,
      by simp [AuditEntry.record, AuditEntry.to_dict]⟩
    · exact distinct_getD hdistinct (hstr "")
    · exact distinct_get hdistinct hactor
    · exact distinct_get hdistinct haction
    · exact distinct_get hdistinct htarget
    · exact distinct_getD hdistinct ⟨trivial, List.nodup_nil⟩
    · exact distinct_get hdistinct houtcome
    · exact distinct_getD hdistinct (hstr "")
    · exact distinct_get hdistinct htimestamp
    · exact distinct_getD hdistinct (hstr "")
  | null | bool | int | float | str | list => cases hj

theorem payload_eq (h : e.prev_hash = .str p) :
    setItem e.to_dict "prev_hash" (.str p) = e.to_dict := by
  simp [setItem, AuditEntry.to_dict, h]

theorem compact_head (items : Items) :
    ((compact fl).write (sort_keys (.dict items))).head? = some '{' := by
  rw [sort_keys, Style.write]
  rfl

/-- The text that an entry's hash is made of tells what the entry says. -/
theorem content_of_text {q : String} (he : WellFormed e) (hb : WellFormed b)
    (hp : e.prev_hash = .str p) (hq : b.prev_hash = .str q)
    (h : entry_text a e (.str p) = entry_text a b (.str q)) :
    content a.floats (.dict e.to_dict) = content a.floats (.dict b.to_dict) := by
  unfold entry_text at h
  rw [payload_eq hp, payload_eq hq] at h
  apply content_of_write (w := compact a.floats) he.to_dict hb.to_dict h
  rw [compact_head]
  decide

/-! ## Chains -/

/-- The hash before each entry of a chain, and the last one. -/
def links (a : Audit) (p : String) : List AuditEntry → List String
  | [] => [p]
  | e :: rest => p :: links a (hash_entry a e (.str p)) rest

structure LinkedAt (a : Audit) (p : String) (e : AuditEntry) : Prop where
  prev : e.prev_hash = .str p
  current : e.current_hash = .str (hash_entry a e (.str p))

theorem verify_from_cons :
    verify_from a p (e :: rest) = true ↔
      LinkedAt a p e ∧ verify_from a (hash_entry a e (.str p)) rest = true := by
  simp only [verify_from, Bool.and_eq_true, beq_iff_eq]
  constructor
  · rintro ⟨⟨hprev, hcurrent⟩, hrest⟩
    exact ⟨⟨asStr_eq hprev, asStr_eq hcurrent⟩, hrest⟩
  · rintro ⟨⟨hprev, hcurrent⟩, hrest⟩
    rw [hprev, hcurrent]
    exact ⟨⟨rfl, rfl⟩, hrest⟩

theorem length_links : (links a p as).length = as.length + 1 := by
  induction as generalizing p with
  | nil => rfl
  | cons e rest ih => rw [links, List.length_cons, ih, List.length_cons]

theorem links_zero : (links a p as)[0]? = some p := by
  cases as <;> rfl

/-- Each entry is linked to the hash before it and makes the one after it. -/
theorem linked_at (h : verify_from a p as = true) {i : ℕ} (he : as[i]? = some e) :
    ∃ l, (links a p as)[i]? = some l ∧ LinkedAt a l e ∧
      (links a p as)[i + 1]? = some (hash_entry a e (.str l)) := by
  induction as generalizing p i with
  | nil => simp at he
  | cons b rest ih =>
    obtain ⟨hlink, hrest⟩ := verify_from_cons.mp h
    cases i with
    | zero =>
      obtain rfl := Option.some.inj he
      exact ⟨p, rfl, hlink, links_zero⟩
    | succ i => exact ih hrest he

/-! ## Reading a log back -/

section Reading

variable (a : Audit)

/-- What a log's lines are read as. -/
def respelled (e : AuditEntry) : AuditEntry where
  actor := respell a.floats e.actor
  action := respell a.floats e.action
  target := respell a.floats e.target
  params_redacted := respell a.floats e.params_redacted
  outcome := respell a.floats e.outcome
  op_id := respell a.floats e.op_id
  timestamp := respell a.floats e.timestamp
  prev_hash := respell a.floats e.prev_hash
  current_hash := respell a.floats e.current_hash

def log_text (es : List AuditEntry) : List Char := es.flatMap fun e => to_json a e ++ ['\n']

def mark_file (count : ℕ) (hash : String) : List Char :=
  (spaced a.floats).write (hwm_payload a count hash)

end Reading

theorem to_json_eq (e : AuditEntry) : ∃ body, to_json a e = '{' :: (body ++ ['}']) :=
  ⟨_, by rw [to_json, Style.write]⟩

theorem printable_to_json {c : Char} (h : c ∈ to_json a e) : Printable c :=
  printable_write (spaced_ascii a.floats) _ c h

theorem strip_to_json (e : AuditEntry) : TrimmedLines.strip (to_json a e) = to_json a e := by
  obtain ⟨body, hbody⟩ := to_json_eq (a := a) e
  rw [hbody, TrimmedLines.strip, TrimmedLines.lstrip_cons (by decide), TrimmedLines.rstrip,
    ← List.cons_append, List.rdropWhile_concat_neg _ _ _ (by decide)]

/-- A printable line is one line of the text. -/
theorem splitlines_line {line rest : List Char} (h : ∀ c ∈ line, Printable c) :
    splitlines (line ++ '\n' :: rest) = line :: splitlines rest := by
  have hbreak : isBreak '\n' = true := by decide
  induction line with
  | nil =>
    rw [List.nil_append, splitlines]
    · rw [if_pos hbreak]
    · rintro _ h
      exact absurd h (by decide)
  | cons c line ih =>
    have hc := h c List.mem_cons_self
    have hreturn : c ≠ '\r' := by
      rintro rfl
      exact absurd hc.1 (by decide)
    have hplain : isBreak c = false := by
      have hlow := hc.1
      have hhigh := hc.2
      simp only [isBreak, decide_eq_false_iff_not, List.mem_cons, List.not_mem_nil, or_false]
      omega
    rw [List.cons_append, splitlines]
    · rw [hplain, ih fun d hd => h d (List.mem_cons_of_mem _ hd)]
      rfl
    · exact fun _ hc _ => absurd hc hreturn

theorem splitlines_log (es : List AuditEntry) (rest : List Char) :
    splitlines (log_text a es ++ rest) = es.map (to_json a) ++ splitlines rest := by
  induction es with
  | nil => rfl
  | cons e es ih =>
    rw [log_text, List.flatMap_cons, List.append_assoc, List.append_assoc, List.singleton_append,
      splitlines_line fun c hc => printable_to_json hc]
    rw [log_text] at ih
    rw [ih]
    rfl

theorem written_lines_torn {log : Option (List Char)} {rest : List Char}
    (hlog : log.getD [] = log_text a es ++ rest) :
    written_lines log = es.map (to_json a) ++ written_lines (some rest) := by
  rw [written_lines, hlog, splitlines_log, List.map_append, List.filter_append, List.map_map]
  have hstrip : es.map (TrimmedLines.strip ∘ to_json a) = es.map (to_json a) :=
    List.map_congr_left fun e _ => strip_to_json e
  rw [hstrip]
  congr 1
  rw [List.filter_eq_self]
  intro line hline
  obtain ⟨e, -, rfl⟩ := List.mem_map.mp hline
  obtain ⟨body, hbody⟩ := to_json_eq (a := a) e
  simp [hbody]

theorem written_lines_log {log : Option (List Char)} (hlog : log.getD [] = log_text a es) :
    written_lines log = es.map (to_json a) := by
  rw [← List.append_nil (log_text a es)] at hlog
  rw [written_lines_torn hlog]
  exact List.append_nil _

theorem loads_to_json (h : WellFormed e) :
    loads (String.ofList (to_json a e)) = some (.dict (respelled a e).record) := by
  apply loads_write (w := spaced a.floats) h
  rw [Style.write]
  simp

/-- The entries of a log are loaded as they were written, whatever follows them. -/
theorem load_chain_torn {log : Option (List Char)} {rest : List Char}
    (hwell : ∀ e ∈ es, WellFormed e) (hlog : log.getD [] = log_text a es ++ rest) :
    load_chain log = es.map (respelled a) ++ load_chain (some rest) := by
  rw [load_chain, written_lines_torn hlog, List.filterMap_append, List.filterMap_map]
  have hread : ∀ e ∈ es, ((fun line => (loads (String.ofList line)).bind from_dict) ∘
      to_json a) e = some (respelled a e) := by
    intro e he
    rw [Function.comp_apply, loads_to_json (hwell e he)]
    rfl
  rw [List.filterMap_congr hread, List.filterMap_eq_map']
  rfl

theorem load_chain_log {log : Option (List Char)} (hwell : ∀ e ∈ es, WellFormed e)
    (hlog : log.getD [] = log_text a es) : load_chain log = es.map (respelled a) := by
  rw [← List.append_nil (log_text a es)] at hlog
  rw [load_chain_torn hwell hlog]
  exact List.append_nil _

theorem text_respelled (e : AuditEntry) (p : String) :
    entry_text a (respelled a e) (.str p) = entry_text a e (.str p) := by
  have hpayload : Json.dict (setItem (respelled a e).to_dict "prev_hash" (.str p)) =
      respell a.floats (.dict (setItem e.to_dict "prev_hash" (.str p))) := by
    simp [setItem, AuditEntry.to_dict, respelled, respell, respellItems]
  rw [entry_text, entry_text, hpayload, sort_respell]
  exact write_respell (w := compact a.floats) _

theorem asStr_respell (v : Json) : (respell fl v).asStr = v.asStr := by
  cases v <;> rfl

theorem verify_respelled (p : String) (es : List AuditEntry) :
    verify_from a p (es.map (respelled a)) = verify_from a p es := by
  induction es generalizing p with
  | nil => rfl
  | cons e rest ih =>
    have hhash : hash_entry a (respelled a e) (.str p) = hash_entry a e (.str p) := by
      rw [hash_entry, hash_entry, text_respelled]
    have hprev : (respelled a e).prev_hash.asStr = e.prev_hash.asStr := asStr_respell _
    have hcurrent : (respelled a e).current_hash.asStr = e.current_hash.asStr := asStr_respell _
    rw [List.map_cons, verify_from, verify_from, hhash, hprev, hcurrent, ih]

/-! ## The last link -/

/-- The hash that the next entry of a chain is linked to. -/
def last_link (a : Audit) (p : String) : List AuditEntry → String
  | [] => p
  | e :: rest => last_link a (hash_entry a e (.str p)) rest

theorem verify_from_concat : verify_from a p (es ++ [e]) = true ↔
    verify_from a p es = true ∧ LinkedAt a (last_link a p es) e := by
  induction es generalizing p with
  | nil =>
    rw [List.nil_append, verify_from_cons]
    simp [verify_from, last_link]
  | cons b rest ih =>
    rw [List.cons_append, verify_from_cons, verify_from_cons, ih, and_assoc]
    rfl

theorem last_link_concat :
    last_link a p (es ++ [e]) = hash_entry a e (.str (last_link a p es)) := by
  induction es generalizing p with
  | nil => rfl
  | cons b rest ih => exact ih

/-- The next entry is linked to the last one of the log. -/
theorem last_hash_log {log : Option (List Char)} (hwell : ∀ e ∈ es, WellFormed e)
    (hlog : log.getD [] = log_text a es) (hchain : verify_chain a es = true) :
    last_hash log = .str (last_link a "" es) := by
  rw [last_hash, written_lines_log hlog, List.getLast?_map]
  rcases List.eq_nil_or_concat es with rfl | ⟨init, e, rfl⟩
  · rfl
  · rw [List.concat_eq_append] at hwell hchain ⊢
    obtain ⟨-, hlink⟩ := verify_from_concat.mp hchain
    have hread := loads_to_json (a := a) (hwell e (by simp))
    have hcurrent : (respelled a e).current_hash = .str (last_link a "" (init ++ [e])) := by
      rw [last_link_concat]
      change respell a.floats e.current_hash = _
      rw [hlink.current]
      rfl
    rw [List.getLast?_concat, Option.map_some, Option.bind_some, hread]
    exact hcurrent

/-! ## A log that verifies -/

/-- The high-water mark is absent or counts up to an entry. -/
def Marked (a : Audit) (es : List AuditEntry) (hwm : Option (List Char)) : Prop :=
  ∀ text, hwm = some text → ∃ n e, es[n]? = some e ∧
    text = mark_file a (n + 1) (hash_entry a e e.prev_hash)

theorem read_mark_file (count : ℕ) (hash : String) :
    read_hwm (some (mark_file a count hash)) = some (hwm_payload a count hash) := by
  have hdistinct : Distinct (hwm_payload a count hash) :=
    ⟨⟨trivial, trivial, trivial, trivial⟩, by simp⟩
  have hread := loads_write (w := spaced a.floats) hdistinct (by rw [hwm_payload, Style.write]; simp)
  rw [read_hwm, Option.bind_some, mark_file, hread]
  rfl

theorem compare_digest_self {d : String} (h : is_digest d = true) :
    compare_digest d d = .ok true := by
  have hascii : d.toList.all (fun c => decide (c.toNat < 128)) = true := by
    rw [is_digest, Bool.and_eq_true, List.all_eq_true] at h
    rw [List.all_eq_true]
    intro c hc
    have hdigit := h.2 c hc
    simp only [Bool.or_eq_true, Bool.and_eq_true, decide_eq_true_eq, Char.le_def,
      UInt32.le_iff_toNat_le] at hdigit
    rw [decide_eq_true_eq]
    rcases hdigit with ⟨-, hhigh⟩ | ⟨-, hhigh⟩
    · exact hhigh.trans_lt (by decide)
    · exact hhigh.trans_lt (by decide)
  rw [compare_digest, if_pos hascii]
  simp

/-- A log as it was written verifies. -/
theorem verify_log {log hwm : Option (List Char)} (hwell : ∀ e ∈ es, WellFormed e)
    (hlog : log.getD [] = log_text a es) (hchain : verify_chain a es = true)
    (hmark : Marked a es hwm) : verify a log hwm = .ok true := by
  rw [verify, load_chain_log hwell hlog, verify_chain, verify_respelled]
  rw [verify_chain] at hchain
  rw [hchain, if_neg (by decide)]
  cases hwm with
  | none => rfl
  | some text =>
    obtain ⟨n, e, he, rfl⟩ := hmark text rfl
    obtain ⟨l, -, hlink, -⟩ := linked_at hchain he
    obtain ⟨hbound, -⟩ := List.getElem?_eq_some_iff.mp he
    rw [read_mark_file]
    have hcount : ((n + 1 : ℕ) : ℤ) ≤ ((es.map (respelled a)).length : ℕ) := by
      rw [List.length_map]
      exact_mod_cast hbound
    have hends : ends_at (es.map (respelled a)) ((n + 1 : ℕ) : ℤ) (hash_entry a e e.prev_hash) =
        true := by
      have hget : (es.map (respelled a))[((n + 1 : ℕ) : ℤ).toNat - 1]? = some (respelled a e) := by
        simp [he]
      have hcurrent : (respelled a e).current_hash.asStr = some (hash_entry a e e.prev_hash) := by
        rw [hlink.prev]
        change (respell a.floats e.current_hash).asStr = _
        rw [asStr_respell, hlink.current]
        rfl
      rw [ends_at, decide_eq_true hcount, hget]
      simp [hcurrent]
    change check_mark a (es.map (respelled a)) _ = .ok true
    have hcompare := compare_digest_self (a.hexdigest
      (mark_text ((n + 1 : ℕ) : ℤ) (hash_entry a e e.prev_hash)))
    simp only [check_mark]
    change (do
      let same ← compare_digest (hwm_mac a ((n + 1 : ℕ) : ℤ) (hash_entry a e e.prev_hash))
        (hwm_mac a ((n + 1 : ℕ) : ℤ) (hash_entry a e e.prev_hash))
      return same && ends_at (es.map (respelled a)) ((n + 1 : ℕ) : ℤ)
        (hash_entry a e e.prev_hash)) = _
    rw [hwm_mac, hcompare, hends]
    rfl

/-! ## Two entries under one key -/

/-- Every float is written as no number: none is written below. -/
def exampleFloats : Floats where
  text := fun _ => "NaN".toList
  spelling := fun _ => "nan"
  reads := fun _ _ _ _ => rfl
  head := fun _ => ⟨'N', ['a', 'N'], rfl, by decide⟩
  printable := fun _ => by simp [Printable]
  settled := fun _ => rfl

def backupHash : String := "121fde674d4387982a053da5aa875d2b447b734c1e3b25830317556476f7afc4"

def deployHash : String := "861e257afa820507a141f20d728b2bda074a6a7fe53134f7b20972da5775bcc1"

/-- The tags of what two appends tag. -/
def exampleTag (text : List Char) : String :=
  if text.head? = some '1' then "a9459dee89941f9351661cb9a5425cc99ed12d7e33ac7a23d5d5475d10c985d9"
  else if text.head? = some '2' then
    "42b0982d6a34f451ac40f96f30c572aea38302083a580a1b831afda4fdf92b2e"
  else if "\"backup\"".toList.isPrefixOf (text.drop 10) then backupHash
  else deployHash

theorem hexdigest_exampleTag (text : List Char) : is_digest (exampleTag text) = true := by
  unfold exampleTag
  split
  · decide +kernel
  split
  · decide +kernel
  split <;> decide +kernel

def exampleAudit : Audit where
  floats := exampleFloats
  tag := exampleTag
  hexdigest := hexdigest_exampleTag
  trunc := fun _ => .error "cannot convert float NaN to integer"
  str_of := fun _ => "None"

def exampleEntry (action op_id timestamp prev_hash current_hash : String) : AuditEntry where
  actor := .str "cli"
  action := .str action
  target := .str "production"
  params_redacted := .dict [("environment", .str "production")]
  outcome := .str "succeeded"
  op_id := .str op_id
  timestamp := .str timestamp
  prev_hash := .str prev_hash
  current_hash := .str current_hash

def backupEntry : AuditEntry :=
  exampleEntry "backup" "1f0c2e9a77b4" "2024-01-01T00:00:00+00:00" "" backupHash

def deployEntry : AuditEntry :=
  exampleEntry "deploy" "9bd1440e6a02" "2024-01-02T00:00:00+00:00" backupHash deployHash

theorem wellFormed_exampleEntry (action op_id timestamp prev_hash current_hash : String) :
    WellFormed (exampleEntry action op_id timestamp prev_hash current_hash) := by
  refine ⟨?_, by simp [AuditEntry.record, AuditEntry.to_dict]⟩
  exact ⟨trivial, trivial, trivial, trivial, ⟨⟨trivial, trivial⟩, by simp⟩, trivial, trivial,
    trivial, trivial, trivial⟩

theorem verify_example : verify_chain exampleAudit [backupEntry, deployEntry] = true := by
  decide +kernel

end AuditChains
