import Odooctl.AuditChains
import Odooctl.ProgramRules

/-!
# What a history of appends leaves in the audit log

An append may fail or be stopped at any of its operations, also in the middle of its line. As long
as each of them finds a log that ends with a whole line, every entry that was returned stays in
the log, and the log verifies wherever it ends with a whole line.
-/
namespace AuditDurability

open EffectPrograms ProgramRules PythonJson JsonText JsonWriting AuditLog AuditChains

structure LogFiles where
  log : Option (List Char) := none
  tmp : Option (List Char) := none
  hwm : Option (List Char) := none

/-- A write that fails leaves the first part of its text; a replacement is done or not. -/
def fileWorld : World Files LogFiles
  | .read_log, s, r, t => t = s ∧ ∀ log, r = .ok log → log = s.log
  | .append_log text, s, r, t =>
    ∃ log part, t = { s with log } ∧ log.getD [] = s.log.getD [] ++ part ∧ part <+: text ∧
      (r = .ok () → part = text)
  | .write_tmp text, s, r, t => ∃ tmp, t = { s with tmp } ∧ (r = .ok () → tmp = some text)
  | .replace_hwm, s, r, t =>
    t = s ∧ r ≠ .ok () ∨ s.tmp ≠ none ∧ t = { s with tmp := none, hwm := s.tmp }

/-- The log ends with a whole line. -/
def Whole (s : LogFiles) : Prop := ∀ c ∈ (s.log.getD []).getLast?, c = '\n'

/-- Calls of `append` one after another, and the entries that they have returned. -/
inductive History (a : Audit) : List AuditEntry → LogFiles → Prop where
  | empty : History a [] {}
  | returned {es s entry e t} : History a es s → Whole s → WellFormed entry →
      Ends fileWorld s (append a entry) (.ok e) t → History a (es ++ [e]) t
  | stopped {es s entry t q} : History a es s → Whole s → WellFormed entry →
      Steps fileWorld s (append a entry) t q → History a es t

/-- The log holds these entries, and a part of one more. -/
structure Written (a : Audit) (written : List AuditEntry) (torn : List Char) (s : LogFiles) :
    Prop where
  well : ∀ e ∈ written, WellFormed e
  chain : verify_chain a written = true
  log : s.log.getD [] = log_text a written ++ torn
  torn : '\n' ∉ torn
  mark : Marked a written s.hwm

/-- The entries that were returned are among those that were written. -/
def Kept (a : Audit) (es : List AuditEntry) (s : LogFiles) : Prop :=
  ∃ written torn, es.Sublist written ∧ Written a written torn s

variable {a : Audit} {es written : List AuditEntry} {entry e : AuditEntry} {s t : LogFiles}
  {I : AuditCall → LogFiles → Prop} {torn : List Char} {log tmp : Option (List Char)}

/-! ## Entries -/

theorem wellFormed_linked (h : WellFormed entry) (p : String) :
    WellFormed (linked a (.str p) entry) := by
  refine ⟨?_, by simp [AuditEntry.record, AuditEntry.to_dict]⟩
  obtain ⟨-, h⟩ := h.1
  exact ⟨trivial, h.1, h.2.1, h.2.2.1, h.2.2.2.1, h.2.2.2.2.1, h.2.2.2.2.2.1, h.2.2.2.2.2.2.1,
    trivial, trivial⟩

theorem linkedAt_linked (p : String) : LinkedAt a p (linked a (.str p) entry) :=
  ⟨rfl, rfl⟩

theorem newline_not_mem (e : AuditEntry) : '\n' ∉ to_json a e := by
  intro h
  exact absurd (printable_to_json h).1 (by decide)

theorem log_text_concat : log_text a (es ++ [e]) = log_text a es ++ (to_json a e ++ ['\n']) := by
  simp [log_text]

/-- Where the log ends with a whole line, no part of an entry follows. -/
theorem Written.whole (h : Written a written torn s) (hwhole : Whole s) : torn = [] := by
  rcases List.eq_nil_or_concat torn with rfl | ⟨init, c, rfl⟩
  · rfl
  · rw [List.concat_eq_append] at h
    have hlast := hwhole c (by rw [h.log, ← List.append_assoc, List.getLast?_concat]; rfl)
    subst hlast
    exact absurd (List.mem_append_right init (List.mem_singleton.mpr rfl)) h.torn

theorem Marked.append (h : Marked a es s.hwm) : Marked a (es ++ [e]) s.hwm := by
  intro text htext
  obtain ⟨n, b, hb, rfl⟩ := h text htext
  refine ⟨n, b, ?_, rfl⟩
  have hlt := (List.getElem?_eq_some_iff.mp hb).1
  rw [List.getElem?_append_left hlt, hb]

/-! ## One append -/

/-- The entry as it is appended to these. -/
def next (a : Audit) (written : List AuditEntry) (entry : AuditEntry) : AuditEntry :=
  linked a (.str (last_link a "" written)) entry

theorem Written.append (h : Written a written [] s) (hentry : WellFormed entry)
    (hlog : log.getD [] = s.log.getD [] ++ (to_json a (next a written entry) ++ ['\n'])) :
    Written a (written ++ [next a written entry]) [] { s with log } where
  well := by
    intro e he
    rcases List.mem_append.mp he with he | he
    · exact h.well e he
    · rw [List.mem_singleton.mp he]
      exact wellFormed_linked hentry _
  chain := verify_from_concat.mpr ⟨h.chain, linkedAt_linked _⟩
  log := by
    rw [List.append_nil, log_text_concat, hlog, h.log, List.append_nil]
  torn := List.not_mem_nil
  mark := Marked.append h.mark

/-- Of a line that was not written whole a part is left that is no line. -/
theorem Written.tear (h : Written a written [] s) (hlog : log.getD [] = s.log.getD [] ++ torn)
    (htorn : torn <+: to_json a e) : Written a written torn { s with log } where
  well := h.well
  chain := h.chain
  log := by rw [hlog, h.log, List.append_nil]
  torn := fun hmem => newline_not_mem e (htorn.subset hmem)
  mark := h.mark

theorem Written.replace (h : Written a (written ++ [e]) torn s) :
    Written a (written ++ [e]) torn { s with
      tmp, hwm := some (mark_file a (written.length + 1) (hash_entry a e e.prev_hash)) } where
  well := h.well
  chain := h.chain
  log := h.log
  torn := h.torn
  mark := by
    rintro text htext
    obtain rfl := Option.some.inj htext
    exact ⟨written.length, e, List.getElem?_concat_length, rfl⟩

/-- Wherever an append stops, what was returned is kept, and what it returns is. -/
theorem append_kept (h : Kept a es s) (hwhole : Whole s) (hentry : WellFormed entry) :
    wp fileWorld (fun _ t => Kept a es t) (append a entry)
      (fun r t => Kept a es t ∧ ∀ e, r = .ok e → Kept a (es ++ [e]) t) s := by
  obtain ⟨written, torn, hsub, hw⟩ := h
  obtain rfl := hw.whole hwhole
  have hkept : Kept a es s := ⟨written, [], hsub, hw⟩
  have hlog : s.log.getD [] = log_text a written := by rw [hw.log, List.append_nil]
  have hlast := last_hash_log hw.well hlog hw.chain
  have hcount : count_lines s.log = written.length := by
    rw [count_lines, written_lines_log hlog, List.length_map]
  have hread : wp fileWorld (fun _ t => Kept a es t) read_log
      (fun r t => t = s ∧ ∀ log, r = .ok log → log = s.log) s := by
    apply wp_perform.mpr
    exact ⟨hkept, fun r t ht => ht⟩
  unfold append
  apply wp_seq hread
  · rintro e t ⟨rfl, -⟩
    exact ⟨hkept, fun _ h => by cases h⟩
  rintro log t ⟨rfl, hfirst⟩
  obtain rfl := hfirst log rfl
  apply wp_seq hread
  · rintro e t ⟨rfl, -⟩
    exact ⟨hkept, fun _ h => by cases h⟩
  rintro log t ⟨rfl, hsecond⟩
  obtain rfl := hsecond log rfl
  rw [hlast, hcount]
  change wp _ _ (append_log (to_json a (next a written entry) ++ ['\n']) >>= fun _ =>
    write_hwm a (written.length + 1) (hash_entry a (next a written entry)
      (next a written entry).prev_hash) >>= fun _ => .pure (next a written entry)) _ _
  have hnew : ∀ {u : LogFiles}, Written a (written ++ [next a written entry]) [] u →
      Kept a (es ++ [next a written entry]) u ∧ Kept a es u := by
    intro u hu
    have hmore := hsub.append (List.Sublist.refl [next a written entry])
    exact ⟨⟨_, _, hmore, hu⟩, ⟨_, _, (List.sublist_append_left es _).trans hmore, hu⟩⟩
  apply wp_seq (P := fun r t => Kept a es t ∧
    (r = .ok () → Written a (written ++ [next a written entry]) [] t))
  · apply wp_perform.mpr
    refine ⟨hkept, ?_⟩
    rintro r t ⟨log, part, rfl, hlog', hpart, hall⟩
    have hwritten (heq : part = to_json a (next a written entry) ++ ['\n']) :=
      hw.append hentry (hlog'.trans (by rw [heq]))
    refine ⟨?_, fun hr => hwritten (hall hr)⟩
    -- All but the last character is no line, so that the entry is there or is not.
    rcases List.prefix_concat_iff.mp hpart with heq | hprefix
    · exact (hnew (hwritten heq)).2
    · exact ⟨written, part, hsub, hw.tear hlog' hprefix⟩
  · rintro e t ⟨ht, -⟩
    exact ⟨ht, fun _ h => by cases h⟩
  rintro ⟨⟩ t ⟨-, ht⟩
  have ht := ht rfl
  apply wp_seq (P := fun r u => Written a (written ++ [next a written entry]) [] u)
  · apply wp_seq (P := fun r u => Written a (written ++ [next a written entry]) [] u ∧
      (r = .ok () → u.tmp = some (mark_file a (written.length + 1)
        (hash_entry a (next a written entry) (next a written entry).prev_hash))))
    · apply wp_perform.mpr
      refine ⟨(hnew ht).2, ?_⟩
      rintro r u ⟨tmp, rfl, htmp⟩
      exact ⟨{ ht with }, htmp⟩
    · exact fun e u hu => hu.1
    rintro ⟨⟩ u ⟨hu, htmp⟩
    apply wp_perform.mpr
    refine ⟨(hnew hu).2, ?_⟩
    rintro r v (⟨rfl, -⟩ | ⟨-, rfl⟩)
    · exact hu
    · rw [htmp rfl]
      exact hu.replace
  · exact fun e u hu => ⟨(hnew hu).2, fun _ h => by cases h⟩
  · rintro ⟨⟩ u hu
    refine ⟨(hnew hu).2, ?_⟩
    rintro e he
    obtain rfl := Except.ok.inj he
    exact (hnew hu).1

/-! ## Histories -/

theorem history_kept (h : History a es s) : Kept a es s := by
  induction h with
  | empty =>
    refine ⟨[], [], .refl [], ?_, rfl, rfl, List.not_mem_nil, ?_⟩
    · exact fun _ h => by cases h
    · exact fun _ h => by cases h
  | returned _ hwhole hentry hends ih =>
    exact (wp_ends (append_kept ih hwhole hentry) hends).2 _ rfl
  | stopped _ hwhole hentry hsteps ih =>
    exact wp_invariant (append_kept ih hwhole hentry) hsteps (fun _ _ h => h) fun _ _ h => h.1

/-- Every entry that was returned is loaded, in the order of the calls; a log that ends with a
whole line verifies. -/
theorem returned_loaded (h : History a es s) :
    (es.map (respelled a)).Sublist (load_chain s.log) ∧
      (Whole s → verify a s.log s.hwm = .ok true) := by
  obtain ⟨written, torn, hsub, hw⟩ := history_kept h
  constructor
  · rw [load_chain_torn hw.well hw.log]
    exact (hsub.map _).trans (List.sublist_append_left _ _)
  · intro hwhole
    obtain rfl := hw.whole hwhole
    exact verify_log hw.well (by rw [hw.log, List.append_nil]) hw.chain hw.mark

/-! ## A second append that is stopped before its mark -/

def serve : (o : AuditCall) → LogFiles → AuditCall.Answer o × LogFiles
  | .read_log, s => (.ok s.log, s)
  | .append_log text, s => (.ok (), { s with log := some (s.log.getD [] ++ text) })
  | .write_tmp text, s => (.ok (), { s with tmp := some text })
  | .replace_hwm, s =>
    if s.tmp = none then (.error "No such file or directory", s)
    else (.ok (), { s with tmp := none, hwm := s.tmp })

theorem serve_fileWorld (o : AuditCall) (s : LogFiles) :
    fileWorld o s (serve o s).1 (serve o s).2 := by
  cases o with
  | read_log => exact ⟨rfl, fun log h => (Except.ok.inj h).symm⟩
  | append_log text => exact ⟨_, text, rfl, rfl, List.prefix_refl text, fun _ => rfl⟩
  | write_tmp text => exact ⟨some text, rfl, fun _ => rfl⟩
  | replace_hwm =>
    by_cases h : s.tmp = none
    · rw [serve, if_pos h]
      exact .inl ⟨rfl, by simp⟩
    · rw [serve, if_neg h]
      exact .inr ⟨h, rfl⟩

def exampleFiles : LogFiles := ((append exampleAudit backupEntry).run serve {}).2

/-- The files once the second line is written. -/
def stoppedFiles : LogFiles :=
  { exampleFiles with
    log := some (exampleFiles.log.getD [] ++
      (to_json exampleAudit (linked exampleAudit (last_hash exampleFiles.log) deployEntry) ++
        ['\n'])) }

theorem stoppedFiles_loaded :
    ([linked exampleAudit (.str "") backupEntry].map (respelled exampleAudit)).Sublist
        (load_chain stoppedFiles.log) ∧
      (Whole stoppedFiles → verify exampleAudit stoppedFiles.log stoppedFiles.hwm = .ok true) := by
  apply returned_loaded
  have hfirst : Ends fileWorld {} (append exampleAudit backupEntry)
      (.ok (linked exampleAudit (.str "") backupEntry)) exampleFiles :=
    ends_served id serve_fileWorld (append exampleAudit backupEntry) {}
  have hwhole : Whole exampleFiles := by
    intro c hc
    change c ∈ ([] ++ (to_json exampleAudit _ ++ ['\n'])).getLast? at hc
    rw [List.nil_append, List.getLast?_concat] at hc
    exact (Option.some.inj hc).symm
  have hsteps : ∃ q,
      Steps fileWorld exampleFiles (append exampleAudit deployEntry) stoppedFiles q :=
    ⟨_, .call (serve_fileWorld .read_log _) (.call (serve_fileWorld .read_log _)
      (.call (serve_fileWorld (.append_log _) _) (.refl _ _)))⟩
  obtain ⟨q, hsteps⟩ := hsteps
  have hempty : Whole {} := fun c hc => by cases hc
  have hreturned := History.returned .empty hempty (wellFormed_exampleEntry _ _ _ _ _) hfirst
  exact .stopped hreturned hwhole (wellFormed_exampleEntry _ _ _ _ _) hsteps

end AuditDurability
