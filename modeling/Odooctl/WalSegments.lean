import Odooctl.PythonIntegers
import Odooctl.PythonText

/-!
# WAL segment names and sequence numbers

The segment arithmetic of `services/pitr.py`. A segment name is the timeline, the log and
the segment as three words of eight hexadecimal digits; for one segment size it stands for
one timeline and one sequence number.
-/
namespace WalSegments

open HexNumerals PythonIntegers PythonText

/-- What the recovery code raises, and the text of an exception of its environment. -/
inductive PitrFailure where
  | pitrError (message : String)
  | valueError (message : String)
  | pathError (message : String)
  | environment (message : String)
  deriving DecidableEq, Repr

abbrev Result := Except PitrFailure

def PitrFailure.str : PitrFailure → String
  | .pitrError m | .valueError m | .pathError m | .environment m => m

def MAX_PITR_WAL_SEGMENTS : ℕ := 100000

/-- `_WAL_SEGMENT_RE`. -/
def isSegmentName (cs : List Char) : Bool := cs.length == 24 && cs.all isHexDigit

/-- `_WAL_HISTORY_RE`. -/
def isHistoryName (cs : List Char) : Bool :=
  (cs.take 8).length == 8 && (cs.take 8).all isHexDigit && cs.drop 8 == ".history".toList

/-- `_WAL_BACKUP_RE`. -/
def isBackupName (cs : List Char) : Bool :=
  isSegmentName (cs.take 24) && (cs.drop 24).take 1 == ['.'] &&
  ((cs.drop 25).take 8).length == 8 && ((cs.drop 25).take 8).all isHexDigit &&
  cs.drop 33 == ".backup".toList

def is_archive_name (filename : String) : Bool :=
  isSegmentName filename.toList || isHistoryName filename.toList || isBackupName filename.toList

def validate_archive_name (filename : String) : Result String :=
  if is_archive_name filename then .ok filename
  else .error (.pathError
    "WAL archive name must be an uppercase segment, timeline history, or backup-history filename")

/-- `int(filename[8 * i:8 * i + 8], 16)`. -/
def word (filename : String) (i : ℕ) : ℕ := value ((filename.toList.drop (8 * i)).take 8)

def timelineOf (filename : String) : ℕ := word filename 0

def segments_per_wal_log (wal_segment_size : ℕ) : Result ℕ :=
  if wal_segment_size < 1024 * 1024 ∨ wal_segment_size > 1024 * 1024 * 1024 ∨
      wal_segment_size &&& (wal_segment_size - 1) ≠ 0 ∨ 0x100000000 % wal_segment_size ≠ 0 then
    .error (.valueError "invalid WAL segment size")
  else .ok (0x100000000 / wal_segment_size)

/-- The part of `wal_name_for_lsn` in its `try` block: two halves of 32 bits. -/
def lsn_position (lsn : String) : Option ℕ :=
  match lsn.toList.dropWhile (· ≠ '/') with
  | [] => none
  | _ :: lower =>
    match int 16 (lsn.toList.takeWhile (· ≠ '/')), int 16 lower with
    | some upper_value, some lower_value =>
      if ¬ (0 ≤ upper_value ∧ upper_value ≤ 0xFFFFFFFF) then none
      else if ¬ (0 ≤ lower_value ∧ lower_value ≤ 0xFFFFFFFF) then none
      else some (upper_value.toNat <<< 32 ||| lower_value.toNat)
    | _, _ => none

def wal_sequence (filename : String) (wal_segment_size : ℕ) : Result ℕ := do
  let _ ← validate_archive_name filename
  if filename.toList.length ≠ 24 then
    .error (.valueError "WAL continuity applies only to segment filenames")
  else
    let segments_per_log ← segments_per_wal_log wal_segment_size
    if timelineOf filename < 1 then .error (.valueError "invalid WAL timeline")
    else if word filename 2 ≥ segments_per_log then
      .error (.valueError "invalid WAL segment filename for segment size")
    else .ok (word filename 1 * segments_per_log + word filename 2)

/-- `f"{timeline:08X}{log:08X}{segment:08X}"`. -/
def walName (timeline log segment : ℕ) : String :=
  String.ofList (padded 8 timeline ++ padded 8 log ++ padded 8 segment)

def wal_name_for_lsn (lsn : String) (timeline wal_segment_size : ℕ) : Result String :=
  if ¬ (1 ≤ timeline ∧ timeline ≤ 0xFFFFFFFF) then
    .error (.valueError "invalid timeline or WAL segment size")
  else do
    let segments_per_log ← segments_per_wal_log wal_segment_size
    match lsn_position lsn with
    | none => .error (.valueError ("invalid PostgreSQL LSN: " ++ quoted lsn))
    | some position =>
      let segment_number := position / wal_segment_size
      .ok (walName timeline (segment_number / segments_per_log) (segment_number % segments_per_log))

def wal_name_for_sequence (sequence timeline wal_segment_size : ℕ) : Result String := do
  let segments_per_log ← segments_per_wal_log wal_segment_size
  if sequence ≥ 0x100000000 * segments_per_log ∨ ¬ (1 ≤ timeline ∧ timeline ≤ 0xFFFFFFFF) then
    .error (.valueError "invalid WAL sequence or timeline")
  else .ok (walName timeline (sequence / segments_per_log) (sequence % segments_per_log))

/-- `int(filename[:8], 16)`, before the name has been checked. -/
def int_timeline (filename : String) : Result ℤ :=
  match int 16 (filename.toList.take 8) with
  | some timeline => .ok timeline
  | none => .error (.valueError ("invalid literal for int() with base 16: " ++
      quoted (String.ofList (filename.toList.take 8))))

def wal_segment_range (first last : String) (wal_segment_size : ℕ) : Result (List String) := do
  if first.toList.length ≠ 24 ∨ last.toList.length ≠ 24 then
    .error (.valueError "WAL range boundaries must be segment names")
  else
    let first_timeline ← int_timeline first
    let last_timeline ← int_timeline last
    if first_timeline ≠ last_timeline then
      .error (.pitrError "A single PITR WAL range cannot cross timelines implicitly")
    else
      let start ← wal_sequence first wal_segment_size
      let stop ← wal_sequence last wal_segment_size
      if stop < start then .error (.pitrError "PITR WAL range ends before it starts")
      else if stop - start + 1 > MAX_PITR_WAL_SEGMENTS then
        .error (.pitrError "PITR WAL range exceeds the safe segment-count limit")
      else
        (List.range' start (stop - start + 1)).mapM fun sequence =>
          wal_name_for_sequence sequence first_timeline.toNat wal_segment_size

/-! ## Names and sequence numbers are inverse -/

variable {filename other : String} {size sequence timeline segments : ℕ}

theorem segments_bounds (h : segments_per_wal_log size = .ok segments) :
    0 < segments ∧ segments ≤ 4096 := by
  unfold segments_per_wal_log at h
  split at h
  · cases h
  · next hok =>
    cases h
    simp only [not_or, Nat.not_lt] at hok
    obtain ⟨hlow, hhigh, -, -⟩ := hok
    constructor
    · exact Nat.div_pos (by omega) (by omega)
    · calc 0x100000000 / size ≤ 0x100000000 / (1024 * 1024) := Nat.div_le_div_left hlow (by decide)
        _ = 4096 := by decide

theorem isSegmentName_of_archive (h : is_archive_name filename = true)
    (hlen : filename.toList.length = 24) : isSegmentName filename.toList = true := by
  unfold is_archive_name at h
  simp only [Bool.or_eq_true] at h
  rcases h with (h | h) | h
  · exact h
  · simp only [isHistoryName, Bool.and_eq_true, beq_iff_eq] at h
    have hdrop := congrArg List.length h.2
    simp only [List.length_drop, hlen] at hdrop
    exact absurd hdrop (by decide)
  · simp only [isBackupName, Bool.and_eq_true, beq_iff_eq] at h
    have hdrop := congrArg List.length h.2
    simp only [List.length_drop, hlen] at hdrop
    exact absurd hdrop (by decide)

/-- What a sequence number says of the name it was read from. -/
theorem wal_sequence_eq_ok : wal_sequence filename size = .ok sequence ↔
    isSegmentName filename.toList = true ∧ 1 ≤ timelineOf filename ∧
    ∃ segments, segments_per_wal_log size = .ok segments ∧ word filename 2 < segments ∧
      sequence = word filename 1 * segments + word filename 2 := by
  unfold wal_sequence validate_archive_name
  constructor
  · intro h
    by_cases hname : is_archive_name filename = true
    swap
    · simp [hname, bind, Except.bind] at h
    by_cases hlen : filename.toList.length = 24
    swap
    · simp [hname, hlen, bind, Except.bind] at h
    cases hsegments : segments_per_wal_log size with
    | error e => simp [hname, hlen, hsegments, bind, Except.bind] at h
    | ok segments =>
      simp only [hname, hlen, hsegments, bind, Except.bind, ↓reduceIte, ne_eq,
        not_true_eq_false] at h
      split at h
      · cases h
      split at h
      · cases h
      cases h
      exact ⟨isSegmentName_of_archive hname hlen, by omega, segments, rfl, by omega, rfl⟩
  · rintro ⟨hname, htimeline, segments, hsegments, hword, rfl⟩
    have hlen : filename.toList.length = 24 := by
      simp only [isSegmentName, Bool.and_eq_true, beq_iff_eq] at hname
      exact hname.1
    have harchive : is_archive_name filename = true := by simp [is_archive_name, hname]
    have ht : ¬ timelineOf filename < 1 := by omega
    have hw : ¬ word filename 2 ≥ segments := by omega
    simp [harchive, hlen, hsegments, bind, Except.bind, ht, hw]

theorem walName_of_isSegmentName (h : isSegmentName filename.toList = true) :
    walName (timelineOf filename) (word filename 1) (word filename 2) = filename := by
  simp only [isSegmentName, Bool.and_eq_true, beq_iff_eq] at h
  obtain ⟨hlen, hall⟩ := h
  have hword : ∀ i ≤ 2, padded 8 (word filename i) = (filename.toList.drop (8 * i)).take 8 := by
    intro i hi
    have hlength : ((filename.toList.drop (8 * i)).take 8).length = 8 := by
      simp only [List.length_take, List.length_drop, hlen]
      omega
    have hhex : ((filename.toList.drop (8 * i)).take 8).all isHexDigit = true := by
      rw [List.all_eq_true] at hall ⊢
      exact fun c hc => hall c (List.mem_of_mem_drop (List.mem_of_mem_take hc))
    have hpadded := padded_value hhex
    rwa [hlength] at hpadded
  have hparts : filename.toList = filename.toList.take 8 ++ ((filename.toList.drop 8).take 8 ++
      (filename.toList.drop 16).take 8) := by
    have hrest : (filename.toList.drop 16).take 8 = filename.toList.drop 16 :=
      List.take_of_length_le (by rw [List.length_drop, hlen])
    rw [hrest, show filename.toList.drop 16 = (filename.toList.drop 8).drop 8 by
      rw [List.drop_drop], List.take_append_drop, List.take_append_drop]
  have h0 := hword 0 (by decide)
  have h1 := hword 1 (by decide)
  have h2 := hword 2 (by decide)
  simp only [Nat.mul_zero, List.drop_zero] at h0
  rw [walName, timelineOf, h0, h1, h2, List.append_assoc]
  exact (congrArg String.ofList hparts.symm).trans String.ofList_toList

theorem toList_walName (t l s : ℕ) :
    (walName t l s).toList = padded 8 t ++ (padded 8 l ++ padded 8 s) := by
  rw [walName, String.toList_ofList, List.append_assoc]

theorem isSegmentName_walName (t l s : ℕ) : isSegmentName (walName t l s).toList = true := by
  rw [toList_walName, isSegmentName]
  simp [List.all_append, all_padded]

theorem word_walName {t l s : ℕ} (ht : t < 16 ^ 8) (hl : l < 16 ^ 8) (hs : s < 16 ^ 8) :
    timelineOf (walName t l s) = t ∧ word (walName t l s) 1 = l ∧ word (walName t l s) 2 = s := by
  have hlen : ∀ n, (padded 8 n).length = 8 := length_padded 8
  refine ⟨?_, ?_, ?_⟩
  · rw [timelineOf, word, toList_walName, Nat.mul_zero, List.drop_zero,
      List.take_append_of_le_length (hlen t).ge, List.take_of_length_le (hlen t).le,
      value_padded_of_lt ht]
  · rw [word, toList_walName, Nat.mul_one, List.drop_left' (hlen t),
      List.take_append_of_le_length (hlen l).ge, List.take_of_length_le (hlen l).le,
      value_padded_of_lt hl]
  · rw [word, toList_walName, ← List.append_assoc,
      List.drop_left' (by rw [List.length_append, hlen, hlen]), List.take_of_length_le (hlen s).le,
      value_padded_of_lt hs]

theorem wal_name_for_sequence_eq_ok :
    wal_name_for_sequence sequence timeline size = .ok filename ↔
    (1 ≤ timeline ∧ timeline ≤ 0xFFFFFFFF) ∧ ∃ segments, segments_per_wal_log size = .ok segments ∧
      sequence < 0x100000000 * segments ∧
      filename = walName timeline (sequence / segments) (sequence % segments) := by
  unfold wal_name_for_sequence
  cases hsegments : segments_per_wal_log size with
  | error e => simp [bind, Except.bind]
  | ok segments =>
    simp only [bind, Except.bind, Except.ok.injEq, exists_eq_left']
    split
    · next hbad =>
      constructor
      · intro h
        cases h
      · rintro ⟨htimeline, hlt, -⟩
        rcases hbad with hbad | hbad
        · omega
        · exact absurd htimeline hbad
    · next hgood =>
      simp only [not_or, not_not, ge_iff_le, Nat.not_le] at hgood
      constructor
      · intro h
        cases h
        exact ⟨hgood.2, hgood.1, rfl⟩
      · rintro ⟨-, -, rfl⟩
        rfl

/-- Reading a sequence number back from the name that was written for it. -/
theorem wal_sequence_of_name (h : wal_name_for_sequence sequence timeline size = .ok filename) :
    wal_sequence filename size = .ok sequence ∧ timelineOf filename = timeline := by
  obtain ⟨htimeline, segments, hsegments, hlt, rfl⟩ := wal_name_for_sequence_eq_ok.mp h
  obtain ⟨hpos, hle⟩ := segments_bounds hsegments
  have hlog : sequence / segments < 16 ^ 8 := by
    rw [Nat.div_lt_iff_lt_mul hpos]
    omega
  have hmod := Nat.mod_lt sequence hpos
  have hwords : _ := word_walName (t := timeline) (by omega) hlog
    (show sequence % segments < 16 ^ 8 by omega)
  obtain ⟨ht, hl, hs⟩ := hwords
  refine ⟨wal_sequence_eq_ok.mpr ⟨isSegmentName_walName _ _ _, ?_, segments, hsegments, ?_, ?_⟩, ht⟩
  · rw [ht]
    exact htimeline.1
  · rw [hs]
    exact hmod
  · rw [hl, hs, Nat.mul_comm]
    exact (Nat.div_add_mod sequence segments).symm

/-- Writing the name of the sequence number that was read from it. -/
theorem name_of_wal_sequence (h : wal_sequence filename size = .ok sequence) :
    wal_name_for_sequence sequence (timelineOf filename) size = .ok filename := by
  obtain ⟨hname, htimeline, segments, hsegments, hword, rfl⟩ := wal_sequence_eq_ok.mp h
  obtain ⟨hpos, -⟩ := segments_bounds hsegments
  have hbound : ∀ i, word filename i < 16 ^ 8 := by
    intro i
    simp only [isSegmentName, Bool.and_eq_true] at hname
    have hhex : ((filename.toList.drop (8 * i)).take 8).all isHexDigit = true := by
      have hall := List.all_eq_true.mp hname.2
      rw [List.all_eq_true]
      exact fun c hc => hall c (List.mem_of_mem_drop (List.mem_of_mem_take hc))
    have hlt := value_lt hhex
    have hlen : ((filename.toList.drop (8 * i)).take 8).length ≤ 8 := List.length_take_le _ _
    exact Nat.lt_of_lt_of_le hlt (Nat.pow_le_pow_right (by decide) hlen)
  have hdiv : (word filename 1 * segments + word filename 2) / segments = word filename 1 := by
    rw [Nat.mul_comm, Nat.mul_add_div hpos, Nat.div_eq_of_lt hword, Nat.add_zero]
  have hmod : (word filename 1 * segments + word filename 2) % segments = word filename 2 := by
    rw [Nat.mul_comm, Nat.mul_add_mod, Nat.mod_eq_of_lt hword]
  apply wal_name_for_sequence_eq_ok.mpr
  have h0 := hbound 0
  have h1 := hbound 1
  refine ⟨⟨htimeline, ?_⟩, segments, hsegments, ?_, ?_⟩
  · rw [timelineOf]
    omega
  · calc word filename 1 * segments + word filename 2
        < word filename 1 * segments + segments := by omega
      _ = (word filename 1 + 1) * segments := by rw [Nat.add_mul, Nat.one_mul]
      _ ≤ 0x100000000 * segments := Nat.mul_le_mul_right _ (by omega)
  · rw [hdiv, hmod, walName_of_isSegmentName hname]

theorem wal_sequence_inj (h : wal_sequence filename size = .ok sequence)
    (k : wal_sequence other size = .ok sequence) (ht : timelineOf filename = timelineOf other) :
    filename = other := by
  have hf := name_of_wal_sequence h
  rw [ht, name_of_wal_sequence k] at hf
  exact (Except.ok.inj hf).symm

end WalSegments
