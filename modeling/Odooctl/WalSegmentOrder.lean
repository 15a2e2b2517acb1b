import Mathlib.Data.Nat.Log
import Mathlib.Data.Nat.Prime.Basic
import Odooctl.CheckedLists
import Odooctl.WalSegments

/-!
# Segment names along the log

For an admitted segment size the names of one timeline are the sequence numbers in their
order: a position below `2 ^ 64` lies in the segment that its quotient names, and the range
between two names has every segment once.
-/
namespace WalSegmentOrder

open HexNumerals PythonIntegers PythonText WalSegments

/-- A power of two from 1 MiB to 1 GiB. -/
def AdmittedSize (size : ℕ) : Prop := ∃ k, 20 ≤ k ∧ k ≤ 30 ∧ size = 2 ^ k

/-- `%X` of PostgreSQL. -/
def hexText (n : ℕ) : List Char := padded (Nat.log 16 n + 1) n

/-- A position as PostgreSQL prints it, `%X/%X`. -/
def lsnText (position : ℕ) : String :=
  String.ofList (hexText (position / 2 ^ 32) ++ '/' :: hexText (position % 2 ^ 32))

/-- The names of one timeline and segment size, from one sequence number to another. -/
structure SegmentRun (timeline size start stop : ℕ) (names : List String) : Prop where
  sequences : names.mapM (fun name => wal_sequence name size) =
    .ok (List.range' start (stop - start + 1))
  increasing : names.Pairwise (· < ·)
  complete : ∀ name, name ∈ names ↔ timelineOf name = timeline ∧
    ∃ sequence, wal_sequence name size = .ok sequence ∧ start ≤ sequence ∧ sequence ≤ stop

/-- What two boundaries must be for a range between them. -/
structure Boundaries (first last : String) (size start stop : ℕ) : Prop where
  first_sequence : wal_sequence first size = .ok start
  last_sequence : wal_sequence last size = .ok stop
  one_timeline : timelineOf first = timelineOf last
  ordered : start ≤ stop

section

variable {size segments timeline position sequence start stop : ℕ} {filename other : String}

theorem segments_eq_ok : segments_per_wal_log size = .ok segments ↔
    AdmittedSize size ∧ segments = 2 ^ 32 / size := by
  constructor
  · intro h
    unfold segments_per_wal_log at h
    split at h
    · cases h
    · next hok =>
      cases h
      simp only [not_or, Nat.not_lt, not_not] at hok
      obtain ⟨hlow, hhigh, -, hdvd⟩ := hok
      obtain ⟨k, -, rfl⟩ := (Nat.dvd_prime_pow Nat.prime_two).mp
        (show size ∣ 2 ^ 32 from Nat.dvd_of_mod_eq_zero hdvd)
      refine ⟨⟨k, ?_, ?_, rfl⟩, rfl⟩
      · exact (Nat.pow_le_pow_iff_right (by decide)).mp (show 2 ^ 20 ≤ 2 ^ k from hlow)
      · exact (Nat.pow_le_pow_iff_right (by decide)).mp (show 2 ^ k ≤ 2 ^ 30 from hhigh)
  · rintro ⟨⟨k, hlow, hhigh, rfl⟩, rfl⟩
    interval_cases k <;> decide

theorem size_mul_segments (h : AdmittedSize size) : size * (2 ^ 32 / size) = 2 ^ 32 := by
  obtain ⟨k, -, hhigh, rfl⟩ := h
  exact Nat.mul_div_cancel' (Nat.pow_dvd_pow 2 (by omega))

theorem size_pos (h : AdmittedSize size) : 0 < size := by
  obtain ⟨k, -, -, rfl⟩ := h
  positivity

/-! ## Positions -/

theorem hex_hexText (n : ℕ) : ∀ c ∈ hexText n, isHexDigit c = true :=
  List.all_eq_true.mp (all_padded _ _)

theorem value_hexText (n : ℕ) : value (hexText n) = n :=
  value_padded_of_lt (Nat.lt_pow_succ_log_self (by decide) n)

theorem hexText_ne_nil (n : ℕ) : hexText n ≠ [] := by
  rw [← List.length_pos_iff, hexText, length_padded]
  exact Nat.succ_pos _

theorem isHexDigit_slash {c : Char} (h : isHexDigit c = true) : c ≠ '/' := by
  rintro rfl
  exact absurd h (by decide)

theorem lsn_position_text (h : position < 2 ^ 64) :
    lsn_position (lsnText position) = some position := by
  have hupper : ∀ c ∈ hexText (position / 2 ^ 32), (decide (c ≠ '/')) = true :=
    fun c hc => decide_eq_true (isHexDigit_slash (hex_hexText _ c hc))
  have hdrop : (lsnText position).toList.dropWhile (· ≠ '/') =
      '/' :: hexText (position % 2 ^ 32) := by
    rw [lsnText, String.toList_ofList, List.dropWhile_append_of_pos hupper]
    rfl
  have htake : (lsnText position).toList.takeWhile (· ≠ '/') = hexText (position / 2 ^ 32) := by
    rw [lsnText, String.toList_ofList, List.takeWhile_append_of_pos hupper]
    simp
  have hlow : position % 2 ^ 32 < 2 ^ 32 := Nat.mod_lt _ (by decide)
  have hhigh : position / 2 ^ 32 < 2 ^ 32 := Nat.div_lt_of_lt_mul h
  rw [lsn_position, hdrop, htake]
  simp only [int_hex (hex_hexText _) (hexText_ne_nil _), value_hexText]
  rw [if_neg (by omega), if_neg (by omega), Int.toNat_natCast, Int.toNat_natCast,
    ← Nat.shiftLeft_add_eq_or_of_lt hlow, Nat.shiftLeft_eq, Nat.mul_comm, Nat.div_add_mod]

theorem name_for_sequence_ok (hsize : AdmittedSize size)
    (htimeline : 1 ≤ timeline ∧ timeline ≤ 0xFFFFFFFF) (h : sequence < 2 ^ 64 / size) :
    wal_name_for_sequence sequence timeline size =
      .ok (walName timeline (sequence / (2 ^ 32 / size)) (sequence % (2 ^ 32 / size))) := by
  refine wal_name_for_sequence_eq_ok.mpr
    ⟨htimeline, _, segments_eq_ok.mpr ⟨hsize, rfl⟩, ?_, rfl⟩
  have hmul := size_mul_segments hsize
  have htotal : 2 ^ 64 / size = 2 ^ 32 * (2 ^ 32 / size) := by
    apply Nat.div_eq_of_eq_mul_right (size_pos hsize)
    calc (2 : ℕ) ^ 64 = 2 ^ 32 * 2 ^ 32 := by norm_num
      _ = 2 ^ 32 * (size * (2 ^ 32 / size)) := by rw [hmul]
      _ = size * (2 ^ 32 * (2 ^ 32 / size)) := by ring
  omega

theorem position_sequence (hsize : AdmittedSize size) (h : position < 2 ^ 64) :
    position / size < 2 ^ 64 / size := by
  obtain ⟨k, -, hhigh, rfl⟩ := hsize
  rw [Nat.pow_div (by omega) (by decide), Nat.div_lt_iff_lt_mul (by positivity), ← pow_add]
  rwa [show 64 - k + k = 64 by omega]

theorem name_for_lsn_ok (hsize : AdmittedSize size)
    (htimeline : 1 ≤ timeline ∧ timeline ≤ 0xFFFFFFFF) (h : position < 2 ^ 64) :
    wal_name_for_lsn (lsnText position) timeline size =
      wal_name_for_sequence (position / size) timeline size := by
  rw [name_for_sequence_ok hsize htimeline (position_sequence hsize h), wal_name_for_lsn,
    if_neg (not_not.mpr htimeline), segments_eq_ok.mpr ⟨hsize, rfl⟩]
  simp only [bind, Except.bind, lsn_position_text h]

/-! ## The order of names -/

theorem hex_word (h : isSegmentName filename.toList = true) (i : ℕ) :
    word filename i < 16 ^ 8 ∧
      ∀ c ∈ (filename.toList.drop (8 * i)).take 8, isHexDigit c = true := by
  simp only [isSegmentName, Bool.and_eq_true] at h
  have hall := List.all_eq_true.mp h.2
  have hhex : ∀ c ∈ (filename.toList.drop (8 * i)).take 8, isHexDigit c = true :=
    fun c hc => hall c (List.mem_of_mem_drop (List.mem_of_mem_take hc))
  refine ⟨?_, hhex⟩
  have hlt := value_lt (List.all_eq_true.mpr hhex)
  exact Nat.lt_of_lt_of_le hlt (Nat.pow_le_pow_right (by decide) (List.length_take_le _ _))

/-- A segment name as one numeral. -/
theorem value_name (h : isSegmentName filename.toList = true) :
    value filename.toList =
      (timelineOf filename * 16 ^ 8 + word filename 1) * 16 ^ 8 + word filename 2 := by
  have hname := congrArg String.toList (walName_of_isSegmentName h)
  have hwords : ∀ i, value (padded 8 (word filename i)) = word filename i :=
    fun i => value_padded_of_lt (hex_word h i).1
  have htimeline : value (padded 8 (timelineOf filename)) = timelineOf filename := hwords 0
  rw [← hname, toList_walName, ← List.append_assoc, value_append, value_append, length_padded,
    length_padded, hwords, hwords, htimeline]

theorem name_lt_iff (h : isSegmentName filename.toList = true)
    (k : isSegmentName other.toList = true) :
    filename < other ↔ value filename.toList < value other.toList := by
  simp only [isSegmentName, Bool.and_eq_true, beq_iff_eq] at h k
  exact (value_lt_iff (List.all_eq_true.mp h.2) (List.all_eq_true.mp k.2) (h.1.trans k.1.symm)).symm

/-- Two words compared by the number they make in the segment size's base. -/
theorem words_lt_iff {a b c d w : ℕ} (hb : b < segments) (hd : d < segments)
    (hbound : segments ≤ w) :
    a * w + b < c * w + d ↔ a * segments + b < c * segments + d := by
  rcases Nat.lt_trichotomy a c with hlt | rfl | hgt
  · have hwide := Nat.mul_le_mul_right w hlt
    have hnarrow := Nat.mul_le_mul_right segments hlt
    rw [Nat.succ_mul] at hwide hnarrow
    omega
  · omega
  · have hwide := Nat.mul_le_mul_right w hgt
    have hnarrow := Nat.mul_le_mul_right segments hgt
    rw [Nat.succ_mul] at hwide hnarrow
    omega

theorem name_order (h : wal_sequence filename size = .ok start)
    (k : wal_sequence other size = .ok stop) (ht : timelineOf filename = timelineOf other) :
    filename < other ↔ start < stop := by
  obtain ⟨hname, -, segments, hsegments, hword, rfl⟩ := wal_sequence_eq_ok.mp h
  obtain ⟨kname, -, _, ksegments, kword, rfl⟩ := wal_sequence_eq_ok.mp k
  obtain rfl : segments = _ := Except.ok.inj (hsegments.symm.trans ksegments)
  have hbounds := segments_bounds hsegments
  rw [name_lt_iff hname kname, value_name hname, value_name kname, ht,
    ← words_lt_iff (w := 16 ^ 8) hword kword (by omega)]
  omega

/-! ## Ranges -/

theorem int_timeline_name (h : isSegmentName filename.toList = true) :
    int_timeline filename = .ok (timelineOf filename : ℤ) := by
  have hlen : (filename.toList.take 8).length = 8 := by
    simp only [isSegmentName, Bool.and_eq_true, beq_iff_eq] at h
    rw [List.length_take, h.1]
    rfl
  have hne : filename.toList.take 8 ≠ [] := List.ne_nil_of_length_pos (by omega)
  have hhex := (hex_word h 0).2
  rw [Nat.mul_zero, List.drop_zero] at hhex
  rw [int_timeline, int_hex hhex hne]
  rfl

theorem Boundaries.first_name (h : Boundaries filename other size start stop) :
    isSegmentName filename.toList = true ∧ isSegmentName other.toList = true :=
  ⟨(wal_sequence_eq_ok.mp h.first_sequence).1, (wal_sequence_eq_ok.mp h.last_sequence).1⟩

theorem length_name (h : isSegmentName filename.toList = true) : filename.toList.length = 24 := by
  simp only [isSegmentName, Bool.and_eq_true, beq_iff_eq] at h
  exact h.1

/-- A range is written name by name once its boundaries have passed. -/
theorem range_eq (h : Boundaries filename other size start stop) :
    wal_segment_range filename other size =
      if stop - start + 1 > MAX_PITR_WAL_SEGMENTS then
        .error (.pitrError "PITR WAL range exceeds the safe segment-count limit")
      else (List.range' start (stop - start + 1)).mapM fun i =>
        wal_name_for_sequence i (timelineOf filename) size := by
  obtain ⟨hfirst, hlast⟩ := h.first_name
  have hlen : ¬ (filename.toList.length ≠ 24 ∨ other.toList.length ≠ 24) := by
    rw [length_name hfirst, length_name hlast]
    decide
  have hordered : ¬ stop < start := Nat.not_lt.mpr h.ordered
  rw [wal_segment_range, if_neg hlen]
  simp only [bind, Except.bind, int_timeline_name hfirst, int_timeline_name hlast, h.one_timeline,
    h.first_sequence, h.last_sequence, ne_eq, not_true_eq_false, if_false, if_neg hordered,
    Int.toNat_natCast]

/-- Whatever a range is given for has passed as its boundaries. -/
theorem boundaries_of_range {names : List String}
    (h : wal_segment_range filename other size = .ok names) :
    ∃ start stop, Boundaries filename other size start stop ∧
      stop - start < MAX_PITR_WAL_SEGMENTS := by
  unfold wal_segment_range at h
  split at h
  · cases h
  obtain ⟨t, ht, h⟩ := CheckedLists.bind_eq_ok.mp h
  obtain ⟨u, hu, h⟩ := CheckedLists.bind_eq_ok.mp h
  split at h
  · cases h
  next hsame =>
  obtain ⟨start, hstart, h⟩ := CheckedLists.bind_eq_ok.mp h
  obtain ⟨stop, hstop, h⟩ := CheckedLists.bind_eq_ok.mp h
  split at h
  · cases h
  next hordered =>
  split at h
  · cases h
  next hcount =>
  have hfirst := int_timeline_name (wal_sequence_eq_ok.mp hstart).1
  have hlast := int_timeline_name (wal_sequence_eq_ok.mp hstop).1
  obtain rfl : t = _ := Except.ok.inj (ht.symm.trans hfirst)
  obtain rfl : u = _ := Except.ok.inj (hu.symm.trans hlast)
  have hone : timelineOf filename = timelineOf other := Int.ofNat.inj (not_not.mp hsame)
  exact ⟨start, stop, ⟨hstart, hstop, hone, Nat.not_lt.mp hordered⟩, by omega⟩

theorem names_exist (h : Boundaries filename other size start stop) :
    ∃ names, List.Forall₂ (fun i name => wal_name_for_sequence i (timelineOf filename) size =
      .ok name) (List.range' start (stop - start + 1)) names := by
  obtain ⟨htimeline, segments, hsegments, -, -⟩ :=
    wal_name_for_sequence_eq_ok.mp (name_of_wal_sequence h.first_sequence)
  obtain ⟨-, _, ksegments, hbound, -⟩ :=
    wal_name_for_sequence_eq_ok.mp (name_of_wal_sequence h.last_sequence)
  obtain rfl : segments = _ := Except.ok.inj (hsegments.symm.trans ksegments)
  have hall : ∀ i ∈ List.range' start (stop - start + 1), ∃ name,
      wal_name_for_sequence i (timelineOf filename) size = .ok name := by
    intro i hi
    have hle := List.mem_range'_1.mp hi
    have hordered := h.ordered
    exact ⟨_, wal_name_for_sequence_eq_ok.mpr ⟨htimeline, segments, hsegments, by omega, rfl⟩⟩
  generalize List.range' start (stop - start + 1) = sequences at hall
  induction sequences with
  | nil => exact ⟨[], .nil⟩
  | cons i rest ih =>
    obtain ⟨name, hname⟩ := hall i List.mem_cons_self
    obtain ⟨names, hnames⟩ := ih fun j hj => hall j (List.mem_cons_of_mem i hj)
    exact ⟨name :: names, .cons hname hnames⟩

theorem increasing_names {sequences : List ℕ} {names : List String}
    (h : List.Forall₂ (fun i name => wal_name_for_sequence i timeline size = .ok name)
      sequences names) (hincreasing : sequences.Pairwise (· < ·)) : names.Pairwise (· < ·) := by
  induction h with
  | nil => exact .nil
  | cons hname hnames ih =>
    obtain ⟨hbefore, hrest⟩ := List.pairwise_cons.mp hincreasing
    refine List.pairwise_cons.mpr ⟨?_, ih hrest⟩
    intro later hlater
    obtain ⟨j, hj, hname'⟩ := CheckedLists.exists_of_mem_right hnames hlater
    obtain ⟨hsequence, htimeline⟩ := wal_sequence_of_name hname
    obtain ⟨hsequence', htimeline'⟩ := wal_sequence_of_name hname'
    exact (name_order hsequence hsequence' (htimeline.trans htimeline'.symm)).mpr (hbefore j hj)

theorem segmentRun_of_names {names : List String} (hordered : start ≤ stop)
    (h : List.Forall₂ (fun i name => wal_name_for_sequence i timeline size = .ok name)
      (List.range' start (stop - start + 1)) names) :
    SegmentRun timeline size start stop names where
  sequences := CheckedLists.mapM_eq_ok.mpr
    (h.flip.imp fun _ _ hname => (wal_sequence_of_name hname).1)
  increasing := increasing_names h List.pairwise_lt_range'
  complete name := by
    constructor
    · intro hmem
      obtain ⟨i, hi, hname⟩ := CheckedLists.exists_of_mem_right h hmem
      have hle := List.mem_range'_1.mp hi
      obtain ⟨hsequence, htimeline⟩ := wal_sequence_of_name hname
      exact ⟨htimeline, i, hsequence, by omega, by omega⟩
    · rintro ⟨rfl, i, hsequence, hlow, hhigh⟩
      have hi : i ∈ List.range' start (stop - start + 1) := List.mem_range'_1.mpr (by omega)
      obtain ⟨found, hfound, hname⟩ := CheckedLists.exists_of_mem_left h hi
      rw [name_of_wal_sequence hsequence] at hname
      rw [Except.ok.inj hname]
      exact hfound

theorem range_of_boundaries (h : Boundaries filename other size start stop)
    (hcount : stop - start < MAX_PITR_WAL_SEGMENTS) :
    ∃ names, wal_segment_range filename other size = .ok names ∧
      SegmentRun (timelineOf filename) size start stop names := by
  obtain ⟨names, hnames⟩ := names_exist h
  refine ⟨names, ?_, segmentRun_of_names h.ordered hnames⟩
  rw [range_eq h, if_neg (by omega)]
  exact CheckedLists.mapM_eq_ok.mpr hnames

theorem range_refused (h : ¬ ∃ start stop, Boundaries filename other size start stop ∧
    stop - start < MAX_PITR_WAL_SEGMENTS) :
    ∃ e, wal_segment_range filename other size = .error e := by
  cases hrange : wal_segment_range filename other size with
  | error e => exact ⟨e, rfl⟩
  | ok names => exact absurd (boundaries_of_range hrange) h

end

/-- Names and sequence numbers of an admitted segment size stand for each other, a position
lies in the segment of its quotient, and a range of at most `MAX_PITR_WAL_SEGMENTS` segments
has exactly the names between its boundaries; every other range is refused. -/
theorem wal_segment_arithmetic {size : ℕ} (hsize : AdmittedSize size) :
    (∀ sequence timeline name, wal_name_for_sequence sequence timeline size = .ok name ↔
      wal_sequence name size = .ok sequence ∧ timelineOf name = timeline) ∧
    (∀ timeline, 1 ≤ timeline ∧ timeline ≤ 0xFFFFFFFF →
      (∀ sequence < 2 ^ 64 / size, ∃ name,
        wal_name_for_sequence sequence timeline size = .ok name) ∧
      ∀ position < 2 ^ 64, ∃ name, wal_name_for_lsn (lsnText position) timeline size = .ok name ∧
        timelineOf name = timeline ∧ wal_sequence name size = .ok (position / size)) ∧
    (∀ first last start stop, wal_sequence first size = .ok start →
      wal_sequence last size = .ok stop → timelineOf first = timelineOf last →
      (first < last ↔ start < stop)) ∧
    (∀ first last start stop, Boundaries first last size start stop →
      stop - start < MAX_PITR_WAL_SEGMENTS →
      ∃ names, wal_segment_range first last size = .ok names ∧
        SegmentRun (timelineOf first) size start stop names) ∧
    ∀ first last, (¬ ∃ start stop, Boundaries first last size start stop ∧
      stop - start < MAX_PITR_WAL_SEGMENTS) → ∃ e, wal_segment_range first last size = .error e := by
  refine ⟨?_, ?_, ?_, ?_, fun first last h => range_refused h⟩
  · intro sequence timeline name
    constructor
    · exact wal_sequence_of_name
    · rintro ⟨hsequence, rfl⟩
      exact name_of_wal_sequence hsequence
  · intro timeline htimeline
    constructor
    · intro sequence hsequence
      exact ⟨_, name_for_sequence_ok hsize htimeline hsequence⟩
    · intro position hposition
      have hlsn := name_for_lsn_ok hsize htimeline hposition
      have hname := name_for_sequence_ok hsize htimeline (position_sequence hsize hposition)
      obtain ⟨hsequence, hsame⟩ := wal_sequence_of_name hname
      exact ⟨_, hlsn.trans hname, hsame, hsequence⟩
  · intro first last start stop hfirst hlast hsame
    exact name_order hfirst hlast hsame
  · intro first last start stop hboundaries hcount
    exact range_of_boundaries hboundaries hcount

/-- The two segments on either side of a log's end. -/
theorem wal_segment_arithmetic_16MiB :
    ∃ names, wal_segment_range "0000000100000000000000FF" "000000010000000100000000" (2 ^ 24) =
      .ok names ∧ SegmentRun (timelineOf "0000000100000000000000FF") (2 ^ 24) 255 256 names :=
  (wal_segment_arithmetic ⟨24, by decide, by decide, rfl⟩).2.2.2.1 _ _ 255 256
    ⟨by decide, by decide, by decide, by decide⟩ (by decide)

/-- One segment more than the limit. -/
theorem long_wal_range_refused : AdmittedSize (2 ^ 20) ∧
    Boundaries "000000010000000000000000" "0000000100000018000006A0" (2 ^ 20) 0 100000 ∧
    wal_segment_range "000000010000000000000000" "0000000100000018000006A0" (2 ^ 20) =
      .error (.pitrError "PITR WAL range exceeds the safe segment-count limit") := by
  have hboundaries :
      Boundaries "000000010000000000000000" "0000000100000018000006A0" (2 ^ 20) 0 100000 :=
    ⟨by decide, by decide, by decide, by decide⟩
  exact ⟨⟨20, by decide, by decide, rfl⟩, hboundaries, range_eq hboundaries⟩

end WalSegmentOrder
