import Odooctl.RunnerWorker

/-!
# The files of a project

The queue directory, the operation records and the nonce file, and what one operation of
the runner does to them. Clock, locks and services answer as they like.
-/
namespace RunnerFiles

open EffectPrograms PitrRestoreRecord NonceStore PythonJson CapabilityTokens RunnerWorker

inductive StoredRecord where
  | unreadable
  | record (op : Operation)

/-- The files by stem; an entry is `none` where its text does not parse. -/
structure Files where
  pending : Map (Option QueueEntry)
  running : Map (Option QueueEntry)
  records : Map StoredRecord

def stored (s : Files) (op_id : String) : Except LoadFailure Operation :=
  match s.records[op_id]? with
  | none => .error .missing
  | some .unreadable => .error .unreadable
  | some (.record op) => .ok op

def Files.save (s : Files) (op : Operation) : Files :=
  { s with records := s.records.insert op.id (.record op) }

/-- The rename to `.running`. -/
def Files.claim (s : Files) (stem : String) : Files :=
  { s with
    pending := s.pending.erase stem
    running := s.running.insert stem (s.pending[stem]?.join) }

/-- The running file is removed or renamed. -/
def Files.finish (s : Files) (stem : String) : Files :=
  { s with running := s.running.erase stem }

variable {C : Type}

/-- One operation while nobody else touches the files. -/
def files : World (Runner C) Files := fun o s r t =>
  match o with
  | .list_pending => List.Perm r s.pending.keys ∧ t = s
  | .claim stem => (r = true ∧ stem ∈ s.pending ∧ t = s.claim stem) ∨
      (r = false ∧ stem ∉ s.pending ∧ t = s)
  | .read_running stem => r = s.running[stem]?.join ∧ t = s
  | .mark_corrupt stem => t = s.finish stem
  | .load op_id => r = stored s op_id ∧ t = s
  | .save op => t = s.save op
  | .complete op_id => t = s.finish op_id
  | .fail op_id => t = s.finish op_id
  | .consume _ _ => (∃ accepted, r = .ok accepted) ∧ t = s
  | _ => t = s

/-- A prompt environment: locks are free, nonces fresh and services succeed. -/
def serve (o : (Runner C).Op) (s : Files) : (Runner C).Reply o × Files :=
  match o with
  | .list_pending => (s.pending.keys, s)
  | .claim stem => if stem ∈ s.pending then (true, s.claim stem) else (false, s)
  | .read_running stem => (s.running[stem]?.join, s)
  | .mark_corrupt stem => ((), s.finish stem)
  | .load op_id => (stored s op_id, s)
  | .save op => ((), s.save op)
  | .complete op_id => ((), s.finish op_id)
  | .fail op_id => ((), s.finish op_id)
  | .now => ((0 : ℕ), s)
  | .consume _ _ => (.ok true, s)
  | .append_event _ => ((), s)
  | .lock_enter _ _ => (.ok (), s)
  | .lock_exit => ((), s)
  | .service _ => (.ok (), s)
  | .audit_append _ => ((), s)

theorem files_serve (o : (Runner C).Op) (s : Files) : files o s (serve o s).1 (serve o s).2 := by
  cases o with
  | list_pending => exact ⟨List.Perm.refl _, rfl⟩
  | claim stem =>
    by_cases h : stem ∈ s.pending
    · simp only [serve, if_pos h]
      exact .inl ⟨rfl, h, rfl⟩
    · simp only [serve, if_neg h]
      exact .inr ⟨rfl, h, rfl⟩
  | read_running stem => exact ⟨rfl, rfl⟩
  | load op_id => exact ⟨rfl, rfl⟩
  | consume nonce expires_at => exact ⟨⟨true, rfl⟩, rfl⟩
  | mark_corrupt stem => rfl
  | save op => rfl
  | complete op_id => rfl
  | fail op_id => rfl
  | now => rfl
  | append_event event => rfl
  | lock_enter environment op_id => rfl
  | lock_exit => rfl
  | service call => rfl
  | audit_append entry => rfl

theorem files_total : World.Total (files (C := C)) :=
  fun o s => ⟨_, _, files_serve o s⟩

section Fields

variable (s : Files) (op : Operation) (stem : String)

@[simp] theorem save_pending : (s.save op).pending = s.pending := rfl
@[simp] theorem save_running : (s.save op).running = s.running := rfl
@[simp] theorem finish_pending : (s.finish stem).pending = s.pending := rfl
@[simp] theorem finish_records : (s.finish stem).records = s.records := rfl
@[simp] theorem claim_records : (s.claim stem).records = s.records := rfl

theorem stored_save : stored (s.save op) op.id = .ok op := by
  simp [stored, Files.save]

@[simp] theorem stored_finish (op_id : String) : stored (s.finish stem) op_id = stored s op_id := rfl

@[simp] theorem stored_claim (op_id : String) : stored (s.claim stem) op_id = stored s op_id := rfl

theorem stored_save_other {op_id : String} (h : op.id ≠ op_id) :
    stored (s.save op) op_id = stored s op_id := by
  simp [stored, Files.save, Std.ExtTreeMap.getElem?_insert, h]

end Fields

/-- A record is filed under its own identifier, as `save` files it. -/
def Filed (s : Files) : Prop := ∀ op_id op, stored s op_id = .ok op → op.id = op_id

theorem Filed.save {s : Files} (h : Filed s) (op : Operation) : Filed (s.save op) := by
  intro op_id op' hr
  by_cases hid : op.id = op_id
  · subst hid
    rw [stored_save] at hr
    rw [Except.ok.inj hr]
  · rw [stored_save_other s op hid] at hr
    exact h op_id op' hr

theorem wp_request {W : World (Runner C) Files}
    {I : (Runner C).Op → Files → Prop} {o : RunnerCall C}
    {Q : Except RunnerFailure o.Answer → Files → Prop} {s : Files} :
    wp W I (request o) Q s ↔ I o s ∧ ∀ r t, W o s r t → Q (.ok r) t := Iff.rfl

end RunnerFiles
