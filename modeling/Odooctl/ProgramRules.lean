import Odooctl.EffectPrograms

/-!
# Rules for sequences of operations

Consequences of the rules for `wp` that follow a program step by step, and rules for a
world in which others step along a relation after every operation.
-/
namespace ProgramRules

open EffectPrograms

variable {F : Interface} {ε ε' α β σ : Type} {W : World F σ} {I : F.Op → σ → Prop}
  {Q : Except ε α → σ → Prop} {s t : σ}

theorem wp_seq {p : Prog F ε β} {f : β → Prog F ε α} {P : Except ε β → σ → Prop}
    (h : wp W I p P s) (herr : ∀ e t, P (.error e) t → Q (.error e) t)
    (hok : ∀ b t, P (.ok b) t → wp W I (f b) Q t) : wp W I (p >>= f) Q s := by
  apply wp_bind'.mpr
  apply wp_post h
  intro r t hr
  cases r with
  | error e => exact herr e t hr
  | ok b => exact hok b t hr

theorem wp_attempt_seq {p : Prog F ε' β} {f : Except ε' β → Prog F ε α}
    {P : Except ε' β → σ → Prop} (h : wp W I p P s)
    (hnext : ∀ r t, P r t → wp W I (f r) Q t) : wp W I (p.attempt >>= f) Q s := by
  apply wp_bind'.mpr
  apply wp_attempt.mpr
  exact wp_post h hnext

theorem wp_ofExcept_seq {r : Except ε β} {f : β → Prog F ε α}
    (herr : ∀ e, r = .error e → Q (.error e) s)
    (hok : ∀ b, r = .ok b → wp W I (f b) Q s) : wp W I (.ofExcept r >>= f) Q s := by
  cases r with
  | error e => exact herr e rfl
  | ok b => exact hok b rfl

/-- A check that raises, and what follows it. -/
theorem wp_check_seq {c : Prop} [Decidable c] {e : ε} {f : Unit → Prog F ε α}
    (hraise : c → Q (.error e) s) (hpass : ¬ c → wp W I (f ()) Q s) :
    wp W I ((if c then .raise e else .pure ()) >>= f) Q s := by
  split
  · next h => exact hraise h
  · next h => exact hpass h

theorem wp_ensuring {p : Prog F ε α} {q : Prog F ε Unit} {P : Except ε α → σ → Prop}
    (h : wp W I p P s) (hq : ∀ r t, P r t → wp W I q (fun x u => match x with
      | .ok _ => Q r u
      | .error e => Q (.error e) u) t) : wp W I (p.ensuring q) Q s := by
  unfold Prog.ensuring
  apply wp_bind.mpr
  apply wp_attempt.mpr
  apply wp_post h
  intro r t hr
  apply wp_bind.mpr
  apply wp_post (hq r t hr)
  intro x u hx
  cases x with
  | error e => exact hx
  | ok _ => exact wp_ofExcept.mpr hx

theorem wp_both {p : Prog F ε α} {R : Except ε α → σ → Prop} (h : wp W I p Q s)
    (k : wp W I p R s) : wp W I p (fun r t => Q r t ∧ R r t) s :=
  wp_mono (wp_and h k) (fun _ _ h => h.1) fun _ _ h => h

/-! ## Others step in between -/

section Around

variable {R : σ → σ → Prop}

theorem wp_perform_under {o : F.Op} {reply : F.Reply o → Except ε α} (hguard : I o s)
    (h : ∀ r u, W o s r u → ∀ t, R u t → Q (reply r) t) :
    wp (W.under R) I (.perform o reply) Q s := by
  apply wp_perform.mpr
  refine ⟨hguard, ?_⟩
  intro r t ht
  obtain ⟨u, hw, hR⟩ := ht
  exact h r u hw t hR

/-- Operations that leave the state alone move it no further than the others do. -/
theorem wp_under_still {D : F.Op → Prop} (hrefl : ∀ s, R s s)
    (htrans : ∀ s t u, R s t → R t u → R s u) (hstill : ∀ o s r t, D o → W o s r t → t = s)
    (hguard : ∀ o u, D o → I o u) {p : Prog F ε α} (h : p.Calls D) :
    wp (W.under R) I p (fun _ t => R s t) s := by
  apply wp_keeps h (hrefl s) (fun o u ho _ => hguard o u ho)
  intro o u r t ho hu hw
  obtain ⟨v, hw, hR⟩ := hw
  obtain rfl := hstill o u r v ho hw
  exact htrans s v t hu hR

end Around

/-! ## What a program returns -/

/-- Where the program is entered in `pre` and returns, `post` holds of the result and the
state. -/
def Returns (W : World F σ) (pre : σ → Prop) (p : Prog F ε α) (post : α → σ → Prop) : Prop :=
  ∀ s, pre s → wp W (fun _ _ => True) p (fun r t => ∀ a, r = .ok a → post a t) s

section Returns

variable {pre P : σ → Prop} {p : Prog F ε α} {f : α → Prog F ε β} {post : β → σ → Prop}

theorem returns_bind {mid : α → σ → Prop} (h : Returns W pre p mid)
    (hf : ∀ a, Returns W (mid a) (f a) post) : Returns W pre (p >>= f) post := by
  intro s hs
  apply wp_bind'.mpr
  apply wp_post (h s hs)
  intro r t hr
  cases r with
  | error e => exact fun b hb => by cases hb
  | ok a => exact hf a t (hr a rfl)

/-- What is known of the result alone is kept apart from what holds of the state. -/
theorem returns_seq {fact : α → Prop} {mid : α → σ → Prop}
    (h : Returns W pre p fun a t => fact a ∧ mid a t)
    (hf : ∀ a, fact a → Returns W (mid a) (f a) post) : Returns W pre (p >>= f) post :=
  returns_bind h fun a t ht => hf a ht.1 t ht.2

theorem returns_pure {post : α → σ → Prop} {a : α} (h : ∀ s, pre s → post a s) :
    Returns W pre (.pure a : Prog F ε α) post := by
  rintro s hs b ⟨⟩
  exact h s hs

theorem returns_raise {post : α → σ → Prop} {e : ε} :
    Returns W pre (.raise e : Prog F ε α) post := by
  rintro s - b ⟨⟩

theorem returns_perform {post : α → σ → Prop} {o : F.Op} {reply : F.Reply o → Except ε α}
    (h : ∀ s r t a, pre s → W o s r t → reply r = .ok a → post a t) :
    Returns W pre (.perform o reply) post := by
  intro s hs
  apply wp_perform.mpr
  exact ⟨trivial, fun r t hw a ha => h s r t a hs hw ha⟩

theorem returns_ofExcept {post : α → σ → Prop} {r : Except ε α}
    (h : ∀ a, r = .ok a → ∀ s, pre s → post a s) :
    Returns W pre (.ofExcept r : Prog F ε α) post :=
  fun s hs => wp_ofExcept.mpr fun a ha => h a ha s hs

theorem returns_ofExcept_seq {r : Except ε α}
    (h : ∀ a, r = .ok a → Returns W pre (f a) post) : Returns W pre (.ofExcept r >>= f) post := by
  cases r with
  | error e => exact returns_raise
  | ok a => exact h a rfl

theorem returns_mapError {post : α → σ → Prop} {g : ε → ε'} (h : Returns W pre p post) :
    Returns W pre (p.mapError g) post := by
  intro s hs
  apply wp_mapError.mpr
  apply wp_post (h s hs)
  intro r t hr a ha
  cases r with
  | ok b => exact hr a (congrArg _ (Except.ok.inj ha))
  | error e => cases ha

theorem returns_mono {pre' : σ → Prop} {post post' : α → σ → Prop} (h : Returns W pre p post)
    (hpre : ∀ s, pre' s → pre s) (hpost : ∀ a t, post a t → post' a t) :
    Returns W pre' p post' :=
  fun s hs => wp_post (h s (hpre s hs)) fun _ t hr a ha => hpost a t (hr a ha)

theorem returns_and {post post' : α → σ → Prop} (h : Returns W pre p post)
    (k : Returns W pre p post') : Returns W pre p fun a t => post a t ∧ post' a t :=
  fun s hs => wp_post (wp_both (h s hs) (k s hs)) fun _ _ hr a ha => ⟨hr.1 a ha, hr.2 a ha⟩

theorem returns_ends {post : α → σ → Prop} {a : α} (h : Returns W pre p post) (hs : pre s)
    (k : Ends W s p (.ok a) t) : post a t :=
  wp_ends (h s hs) k a rfl

end Returns

/-! ## Runs -/

section Runs

variable {p : Prog F ε α} {u : σ} {l m : List F.Op}

theorem ends_bind {f : α → Prog F ε β} {a : α} {r : Except ε β} (h : Ends W s p (.ok a) t)
    (k : Ends W t (f a) r u) : Ends W s (p >>= f) r u := by
  induction p generalizing s with
  | pure b =>
    cases h
    exact k
  | raise e => cases h
  | call o next ih =>
    cases h with
    | call hw hrest => exact Steps.call hw (ih _ hrest)

/-- A run of a sequence is still in its first part, or has returned from it. -/
theorem steps_bind {p : Prog F ε β} {f : β → Prog F ε α} {q : Prog F ε α}
    (h : Steps W s (p >>= f) t q) :
    (∃ p', Steps W s p t p') ∨ ∃ b u, Ends W s p (.ok b) u ∧ Steps W u (f b) t q := by
  induction p generalizing s with
  | pure b => exact .inr ⟨b, s, .refl _ _, h⟩
  | raise e =>
    cases h
    exact .inl ⟨_, .refl _ _⟩
  | call o next ih =>
    cases h with
    | refl => exact .inl ⟨_, .refl _ _⟩
    | call hw hrest =>
      rcases ih _ hrest with ⟨p', hp'⟩ | ⟨b, u, hend, hrest⟩
      · exact .inl ⟨p', .call hw hp'⟩
      · exact .inr ⟨b, u, .call hw hend, hrest⟩

/-- What a run has logged is among the operations that its program calls. -/
theorem logged_calls {D : F.Op → Prop} {q : Prog F ε α} (h : p.Calls D)
    (k : Steps W.logged (s, l) p (t, m) q) : ∀ o ∈ m, o ∈ l ∨ D o := by
  induction p generalizing s l with
  | pure b =>
    cases k
    exact fun o ho => Or.inl ho
  | raise e =>
    cases k
    exact fun o ho => Or.inl ho
  | call x next ih =>
    cases k with
    | refl => exact fun o ho => Or.inl ho
    | call hw hrest =>
      rename_i v reply
      obtain ⟨w, log⟩ := v
      obtain ⟨-, rfl⟩ := hw
      intro o ho
      rcases ih reply (h.2 reply) hrest o ho with hlogged | hcalled
      · rcases List.mem_append.mp hlogged with hold | hnew
        · exact Or.inl hold
        · rw [List.mem_singleton.mp hnew]
          exact Or.inr h.1
      · exact Or.inr hcalled

end Runs

/-! ## Runs against a server -/

section Server

variable {serve : (o : F.Op) → σ → F.Reply o × σ} {p : Prog F ε β} {f : β → Prog F ε α}

theorem run_bind (p : Prog F ε β) (f : β → Prog F ε α) (s : σ) :
    (p >>= f).run serve s =
      match p.run serve s with
      | (.ok b, t) => (f b).run serve t
      | (.error e, t) => (.error e, t) := by
  induction p generalizing s with
  | pure b => rfl
  | raise e => rfl
  | call o k ih => exact ih _ _

theorem run_seq {b : β} (h : p.run serve s = (.ok b, t)) :
    (p >>= f).run serve s = (f b).run serve t := by
  rw [run_bind, h]

theorem run_ofExcept_error {r : Except ε β} {e : ε} (h : r = .error e) :
    (.ofExcept r >>= f : Prog F ε α).run serve s = (.error e, s) := by
  subst h
  rfl

theorem run_ofExcept_ok {r : Except ε β} {b : β} (h : r = .ok b) :
    (.ofExcept r >>= f : Prog F ε α).run serve s = (f b).run serve s := by
  subst h
  rfl

/-- A run against a server whose own state is a representation of the world's. -/
theorem ends_served {δ : Type} {serve : (o : F.Op) → δ → F.Reply o × δ} (f : δ → σ)
    (hw : ∀ o v, W o (f v) (serve o v).1 (f (serve o v).2)) (p : Prog F ε α) (v : δ) :
    Ends W (f v) p (p.run serve v).1 (f (p.run serve v).2) := by
  induction p generalizing v with
  | pure a => exact .refl _ _
  | raise e => exact .refl _ _
  | call o k ih => exact .call (hw o v) (ih _ _)

end Server

end ProgramRules
