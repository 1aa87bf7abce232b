import OpenSM.PartitionText

/-! A text read line by line means what it means as a whole. -/

namespace OpenSM.Partition.Text

open Lib Lib.CString Lib.CBuffer
open Parse (isBlank gidOk Acted)

variable {env : Env}

section Meaning

def bodyEvents (inDef : Bool) (w : Str) : List (Option Event) :=
  if inDef then (properties w).map fun e => some (.entry e)
  else match definition w with
    | none => [none]
    | some d =>
      d.flags.map (fun t => some (.flag t)) ++ some (.create d.head) :: d.entries.map fun e => some (.entry e)

def docEvents : Bool → List Str → List (Option Event)
  | _, [] => []
  | inDef, [w] => if blankText w then [] else bodyEvents inDef w
  | inDef, w :: ws => bodyEvents inDef w ++ some .flush :: docEvents false ws

variable {a t u v w x z : Str} {b closed ahead : Bool} {xs : List Str}

lemma entrySteps_event (closed : Bool) (ts : List Token) :
    (entrySteps closed ts).map Step.event = (entries ts).map fun e => some (.entry e) := by
  induction ts with
  | nil => rfl
  | cons t ts ih =>
    rw [entrySteps, entries]
    split_ifs
    · rfl
    · rfl
    · exact ih
    · exact congrArg (_ :: ·) ih

lemma properties_cons (hu : '\n' ∉ u) : properties (u ++ '\n' :: v) = entries (tokens u) ++ properties v := by
  rw [properties, splitOn_cons hu]
  rfl

lemma properties_single (hu : '\n' ∉ u) : properties u = entries (tokens u) := by
  rw [properties, splitOn_single hu, List.flatMap_singleton]

lemma entries_blank (ha : blankText a = true) : entries (tokens a) = [] := by
  have hna : ',' ∉ a := notMem_blank ha (by decide)
  have hne : '=' ∉ a := notMem_blank ha (by decide)
  have hn : trim isBlank a = [] := by
    rw [trim, List.dropWhile_eq_nil_iff.mpr (List.all_eq_true.mp ha)]
    rfl
  rw [tokens_single hna, token_name hne, hn]
  rfl

lemma properties_blank_append (ha : blankText a = true) (w : Str) : properties (a ++ w) = properties w := by
  induction hn : a.length using Nat.strong_induction_on generalizing a with
  | _ n ih =>
    by_cases hc : '\n' ∈ a
    · obtain ⟨u, v, rfl, hu⟩ := exists_cut hc
      have hb : blankText u = true ∧ blankText v = true := by
        simp only [blankText, List.all_append, List.all_cons, Bool.and_eq_true] at ha
        exact ⟨ha.1, ha.2.2⟩
      rw [List.append_assoc, List.cons_append, properties_cons hu, entries_blank hb.1]
      exact ih v.length (by rw [← hn]; simp; omega) hb.2 rfl
    · by_cases hw : '\n' ∈ w
      · obtain ⟨u, v, rfl, hu⟩ := exists_cut hw
        rw [← List.append_assoc, properties_cons (by simp [hc, hu]), properties_cons hu, tokens_blank_append ha]
      · rw [properties_single (by simp [hc, hw]), properties_single hw, tokens_blank_append ha]

lemma definition_none (hw : ':' ∉ w) : definition w = none := if_neg hw

lemma definition_some (hu : ':' ∉ u) {t : Token} {ts : List Token} (ht : tokens u = t :: ts) :
    definition (u ++ ':' :: v) = some ⟨t, ts, properties v⟩ := by
  rw [definition, if_pos (by simp), takeWhile_ne hu, dropWhile_ne hu, ht]

lemma tokens_ne_nil (w : Str) : ∃ t ts, tokens w = t :: ts :=
  List.exists_cons_of_ne_nil (by simp [tokens])

lemma bodyEvents_blank_append (ha : blankText a = true) (b : Bool) (w : Str) :
    bodyEvents b (a ++ w) = bodyEvents b w := by
  have hna : ':' ∉ a := notMem_blank ha (by decide)
  cases b with
  | true => exact congrArg (List.map _) (properties_blank_append ha w)
  | false =>
    have hd : definition (a ++ w) = definition w := by
      by_cases hc : ':' ∈ w
      · obtain ⟨u, v, rfl, hu⟩ := exists_cut hc
        obtain ⟨t, ts, ht⟩ := tokens_ne_nil u
        rw [← List.append_assoc, definition_some hu ht,
          definition_some (by simp [hna, hu]) ((tokens_blank_append ha u).trans ht)]
      · rw [definition_none hc, definition_none (by simp [hna, hc])]
    rw [bodyEvents, bodyEvents, if_neg Bool.false_ne_true, if_neg Bool.false_ne_true, hd]

lemma bodyEvents_newline (ht : '\n' ∉ t) (hcolon : b = true ∨ ':' ∈ t) :
    bodyEvents b (t ++ '\n' :: x) = (partSteps closed ahead b t).map Step.event ++ (properties x).map
        fun e => some (.entry e) := by
  cases b with
  | true =>
    have hb : bodyEvents true (t ++ '\n' :: x) = (properties (t ++ '\n' :: x)).map fun e => some (.entry e) := rfl
    rw [hb, properties_cons ht, List.map_append, ← entrySteps_event closed]
    rfl
  | false =>
    obtain ⟨u, v, rfl, hu⟩ := exists_cut (hcolon.resolve_left Bool.false_ne_true)
    obtain ⟨t, ts, htok⟩ := tokens_ne_nil u
    have hv : '\n' ∉ v := fun h => ht (List.mem_append_right _ (List.mem_cons_of_mem _ h))
    have hs : partSteps closed ahead false (u ++ ':' :: v) = headSteps closed ahead (u ++ ':' :: v) := rfl
    rw [List.append_assoc, List.cons_append, bodyEvents, definition_some hu htok, properties_cons hv, hs,
      headSteps_eq hu htok, List.map_append, openSteps_event, entrySteps_event]
    simp [flagEvents]

lemma bodyEvents_line (ht : '\n' ∉ t) : bodyEvents b t = (partSteps closed ahead b t).map Step.event := by
  cases b with
  | true =>
    have hb : bodyEvents true t = (properties t).map fun e => some (.entry e) := rfl
    rw [hb, properties_single ht, ← entrySteps_event closed]
    rfl
  | false =>
    have hs : partSteps closed ahead false t = headSteps closed ahead t := rfl
    rw [hs]
    by_cases hc : ':' ∈ t
    · obtain ⟨u, v, rfl, hu⟩ := exists_cut hc
      obtain ⟨t, ts, htok⟩ := tokens_ne_nil u
      have hv : '\n' ∉ v := fun h => ht (List.mem_append_right _ (List.mem_cons_of_mem _ h))
      rw [bodyEvents, definition_some hu htok, properties_single hv, headSteps_eq hu htok,
        List.map_append, openSteps_event, entrySteps_event]
      simp [flagEvents]
    · rw [bodyEvents, definition_none hc, headSteps, if_neg hc]
      rfl

def docRest : List Str → List (Option Event)
  | [] => []
  | w :: ws => some .flush :: docEvents false (w :: ws)

lemma docEvents_text (hw : blankText w = false) (b : Bool) (xs : List Str) :
    docEvents b (w :: xs) = bodyEvents b w ++ docRest xs := by
  cases xs with
  | nil => rw [docEvents, if_neg (by simp [hw]), docRest, List.append_nil]
  | cons x xs => rfl

lemma bodyEvents_true_blank (hw : blankText w = true) : bodyEvents true w = [] := by
  have h := bodyEvents_blank_append hw true []
  rw [List.append_nil] at h
  exact h

lemma docEvents_true (w : Str) (xs : List Str) : docEvents true (w :: xs) = bodyEvents true w ++ docRest xs := by
  cases hw : blankText w with
  | false => exact docEvents_text hw true xs
  | true =>
    cases xs with
    | nil => rw [docEvents, if_pos hw, bodyEvents_true_blank hw, docRest, List.append_nil]
    | cons x xs => rfl

lemma docEvents_blank_append (ha : blankText a = true) (b : Bool) (w : Str) (xs : List Str) :
    docEvents b ((a ++ w) :: xs) = docEvents b (w :: xs) := by
  cases xs with
  | nil => rw [docEvents, docEvents, blankText_append, ha, Bool.true_and, bodyEvents_blank_append ha]
  | cons x xs => exact congrArg (· ++ some .flush :: docEvents false (x :: xs)) (bodyEvents_blank_append ha b w)

lemma splitOn_append {c : Char} (hu : c ∉ u) (v : Str) :
    (u ++ v).splitOn c = (v.splitOn c).modifyHead (u ++ ·) := by
  induction u with
  | nil =>
    rw [List.nil_append]
    cases v.splitOn c <;> rfl
  | cons x u ih =>
    have hx : (x == c) = false := beq_false_of_ne fun h => hu (h ▸ List.mem_cons_self)
    have ih := ih fun h => hu (List.mem_cons_of_mem _ h)
    rw [List.cons_append, List.splitOn, List.splitOnP_cons_eq_if_modifyHead, if_neg (by simp [hx]),
        ← List.splitOn, ih]
    cases v.splitOn c <;> rfl

lemma splitOn_ne_nil (c : Char) (v : Str) : ∃ x xs, v.splitOn c = x :: xs :=
  List.exists_cons_of_ne_nil (List.splitOnP_ne_nil _ _)

def Means (env : Env) (ws : List Str) (segs : List (Str × Bool)) : Prop :=
  ∀ (b : Bool) (a : Acted), Clean env a (segSteps b segs) →
    run env a (docEvents b ws) = runSteps env a (segSteps b segs)

/-- A line that ends inside a definition. -/
lemma Means.newline {segs : List (Str × Bool)} (h : Means env (x :: xs) segs)
    (hahead : colonAhead segs = decide (':' ∈ x)) (ht : '\n' ∉ t) :
    Means env ((t ++ '\n' :: x) :: xs) ((t, false) :: segs) := by
  intro b a hclean
  cases hb : blankText t with
  | true =>
    have hb' : blankText (t ++ ['\n']) = true := by
      rw [blankText_append, hb]
      rfl
    have happ : t ++ '\n' :: x = (t ++ ['\n']) ++ x := by simp
    rw [segSteps_blank hb] at hclean ⊢
    rw [happ, docEvents_blank_append hb']
    exact h b a hclean
  | false =>
    have hb' : blankText (t ++ '\n' :: x) = false := by
      rw [blankText_append, hb]
      rfl
    rw [segSteps_text hb, List.append_assoc] at hclean ⊢
    rw [docEvents_text hb']
    by_cases hcolon : b = true ∨ ':' ∈ t
    · have hbody : bodyEvents b (t ++ '\n' :: x) =
          (partSteps false (!false && colonAhead segs) b t).map Step.event ++ bodyEvents true x :=
        bodyEvents_newline ht hcolon
      have hrest := h true _ (clean_append hclean).2
      rw [docEvents_true] at hrest
      rw [hbody, List.append_assoc, run_append, runSteps_append]
      exact hrest
    · obtain ⟨hb₀, hc⟩ := not_or.mp hcolon
      obtain rfl := Bool.not_eq_true _ |>.mp hb₀
      have hsteps : partSteps false (!false && colonAhead segs) false
          t = [⟨none, !(!false && colonAhead segs)⟩] := if_neg hc
      rw [hsteps] at hclean ⊢
      cases ho : a.ok with
      | false => rw [run_of_not_ok ho, runSteps_of_not_ok ho]
      | true =>
        have hx : ':' ∉ x := by
          have hcl := clean_head hclean ho
          rw [hahead] at hcl
          simpa using hcl
        have hd : bodyEvents false (t ++ '\n' :: x) = [none] := by
          rw [bodyEvents, if_neg Bool.false_ne_true, definition_none (by simp [hc, hx])]
        have hfail : run env a [none] = a.fail := step_none ho
        have hfail' : ∀ c : Bool, runSteps env a [⟨none, c⟩] = a.fail := fun _ => step_none ho
        rw [hd, run_append, runSteps_append, hfail, hfail', run_of_not_ok rfl, runSteps_of_not_ok rfl]

lemma means_last (ht : '\n' ∉ t) : Means env [t] [(t, false)] := by
  intro b a _
  cases hb : blankText t with
  | true => rw [docEvents, if_pos hb, segSteps_blank hb]; rfl
  | false =>
    have hbody : bodyEvents b t = (partSteps false (!false && colonAhead []) b t).map Step.event :=
        bodyEvents_line ht
    have hsteps : segSteps b [(t, false)] = partSteps false (!false && colonAhead []) b t := by
      rw [segSteps_text hb, List.append_assoc]
      exact List.append_nil _
    rw [docEvents_text hb, hbody, docRest, List.append_nil, hsteps]
    rfl

lemma Means.semicolon {segs : List (Str × Bool)} {ws : List Str} (h : Means env ws segs) (hne : ws ≠ [])
    (hu : '\n' ∉ u) :
    Means env (u :: ws) ((u, true) :: segs) := by
  intro b a hclean
  obtain ⟨w, ws, rfl⟩ := List.exists_cons_of_ne_nil hne
  have hdoc : docEvents b (u :: w :: ws) = bodyEvents b u ++ some .flush :: docEvents false (w :: ws) := rfl
  cases hb : blankText u with
  | true =>
    rw [segSteps, if_pos hb, if_pos rfl] at hclean ⊢
    cases ho : a.ok with
    | false => rw [run_of_not_ok ho, runSteps_of_not_ok ho]
    | true => exact absurd (clean_head hclean ho) Bool.false_ne_true
  | false =>
    rw [segSteps_text hb, List.append_assoc] at hclean ⊢
    rw [hdoc, bodyEvents_line hu, ← List.singleton_append, run_append, run_append, runSteps_append,
        runSteps_append]
    exact h false _ (clean_append (clean_append hclean).2).2

structure Reads (env : Env) (text : Str) (segs : List (Str × Bool)) : Prop where
  means : Means env (text.splitOn ';') segs
  ahead : colonAhead segs = decide (':' ∈ (text.splitOn ';').headD [])
  blank : blankText text = segs.all fun g => blankText g.1 && !g.2

lemma Reads.semicolon {segs : List (Str × Bool)} (h : Reads env v segs) (hu : '\n' ∉ u) (hu' : ';' ∉ u) :
    Reads env (u ++ ';' :: v) ((u, true) :: segs) := by
  have hne : v.splitOn ';' ≠ [] := List.splitOnP_ne_nil _ _
  refine ⟨?_, ?_, ?_⟩
  · rw [splitOn_cons hu']
    exact h.means.semicolon hne hu
  · rw [splitOn_cons hu', colonAhead]
    exact Bool.or_false _
  · rw [blankText_append, List.all_cons, Bool.not_true, Bool.and_false, Bool.false_and]
    exact Bool.and_false _

lemma Reads.newline {segs : List (Str × Bool)} (h : Reads env v segs) (ht : '\n' ∉ t) (ht' : ';' ∉ t) :
    Reads env (t ++ '\n' :: v) ((t, false) :: segs) := by
  obtain ⟨x, xs, hx⟩ := splitOn_ne_nil ';' v
  have hm := h.means
  have ha := h.ahead
  have hsplit : (t ++ '\n' :: v).splitOn ';' = (t ++ '\n' :: x) :: xs := by
    have hn : (t ++ '\n' :: v) = (t ++ ['\n']) ++ v := by simp
    rw [hn, splitOn_append (by simp [ht']), hx]
    simp
  rw [hx] at hm ha
  refine ⟨hsplit ▸ hm.newline ha ht, ?_, ?_⟩
  · rw [hsplit, colonAhead, ha]
    simp
  · rw [blankText_append, List.all_cons, ← h.blank, Bool.not_false, Bool.and_true]
    rfl

lemma reads_last (ht : '\n' ∉ t) (ht' : ';' ∉ t) : Reads env t [(t, false)] := by
  refine ⟨?_, ?_, by simp⟩
  · rw [splitOn_single ht']
    exact means_last ht
  · rw [splitOn_single ht']
    simp [colonAhead]

lemma Reads.line {segs : List (Str × Bool)} (h : Reads env v segs) (ht : '\n' ∉ t) :
    Reads env (t ++ '\n' :: v) (marked (t.splitOn ';') ++ segs) := by
  induction hn : t.length using Nat.strong_induction_on generalizing t with
  | _ n ih =>
    by_cases hc : ';' ∈ t
    · obtain ⟨u, w, rfl, hu⟩ := exists_cut hc
      have hnu : '\n' ∉ u := fun h => ht (List.mem_append_left _ h)
      have hnw : '\n' ∉ w := fun h => ht (List.mem_append_right _ (List.mem_cons_of_mem _ h))
      rw [marked_cons hu, List.append_assoc, List.cons_append, List.cons_append]
      exact (ih w.length (by rw [← hn]; simp; omega) hnw rfl).semicolon hnu hu
    · rw [marked_single hc]
      exact h.newline ht hc

lemma reads_lastLine (ht : '\n' ∉ t) : Reads env t (marked (t.splitOn ';')) := by
  induction hn : t.length using Nat.strong_induction_on generalizing t with
  | _ n ih =>
    by_cases hc : ';' ∈ t
    · obtain ⟨u, w, rfl, hu⟩ := exists_cut hc
      have hnu : '\n' ∉ u := fun h => ht (List.mem_append_left _ h)
      have hnw : '\n' ∉ w := fun h => ht (List.mem_append_right _ (List.mem_cons_of_mem _ h))
      rw [marked_cons hu]
      exact (ih w.length (by rw [← hn]; simp; omega) hnw rfl).semicolon hnu hu
    · rw [marked_single hc]
      exact reads_last ht hc

lemma noComments_true (ht : '\n' ∉ t) : noComments true t = [] ∧
    noComments true (t ++ '\n' :: v) = '\n' :: noComments false v := by
  induction t with
  | nil => exact ⟨rfl, rfl⟩
  | cons c t ih =>
    have hc : c ≠ '\n' := fun h => ht (h ▸ List.mem_cons_self)
    obtain ⟨h₁, h₂⟩ := ih fun h => ht (List.mem_cons_of_mem _ h)
    rw [List.cons_append, noComments, noComments, if_neg hc, if_neg hc, if_pos (Or.inl rfl), if_pos (Or.inl rfl)]
    exact ⟨h₁, h₂⟩

lemma noComments_line (ht : '\n' ∉ t) :
    noComments false t = content t ∧
        noComments false (t ++ '\n' :: v) = content t ++ '\n' :: noComments false v := by
  induction t with
  | nil => exact ⟨rfl, rfl⟩
  | cons c t ih =>
    have hc : c ≠ '\n' := fun h => ht (h ▸ List.mem_cons_self)
    have ht' : '\n' ∉ t := fun h => ht (List.mem_cons_of_mem _ h)
    rw [List.cons_append, noComments, noComments, if_neg hc, if_neg hc, content, List.takeWhile_cons]
    by_cases hh : c = '#'
    · rw [if_pos (Or.inr hh), if_pos (Or.inr hh), if_neg (by simp [hh])]
      exact noComments_true ht'
    · have hn : ¬(false = true ∨ c = '#') := by simpa using hh
      rw [if_neg hn, if_neg hn, if_pos (by simpa using hh)]
      exact ⟨congrArg (c :: ·) (ih ht').1, congrArg (c :: ·) (ih ht').2⟩

lemma reads_text (text : Str) : Reads env (noComments false text) (fileSegs text) := by
  induction hn : text.length using Nat.strong_induction_on generalizing text with
  | _ n ih =>
    have hcont : ∀ {t : Str}, '\n' ∉ t → '\n' ∉ content t := fun ht h => ht ((List.takeWhile_sublist _).subset h)
    by_cases hc : '\n' ∈ text
    · obtain ⟨u, v, rfl, hu⟩ := exists_cut hc
      rw [(noComments_line hu).2, fileSegs, splitOn_cons hu, List.flatMap_cons]
      exact (ih v.length (by rw [← hn]; simp; omega) v rfl).line (hcont hu)
    · have h := (noComments_line (v := []) hc).1
      rw [h, fileSegs, splitOn_single hc, List.flatMap_singleton]
      exact reads_lastLine (hcont hc)

structure SameOutcome (a a' : Acted) : Prop where
  log : a.log = a'.log
  ok : a.ok = a'.ok
  subn : a.ctx.subn = a'.ctx.subn

lemma pieceEvents_eq (a : Acted) (w : Str) :
    run env a (pieceEvents w) = run env a (bodyEvents false w ++ [some .flush]) := by
  rw [pieceEvents, bodyEvents, if_neg Bool.false_ne_true]
  cases definition w with
  | none =>
    rw [run_append]
    cases ho : a.ok with
    | true =>
      have hf : run env a [none] = a.fail := step_none ho
      rw [hf, run_of_not_ok rfl]
    | false => rw [run_of_not_ok ho, run_of_not_ok ho]
  | some d =>
    simp only [PartDef.events, List.map_append, List.map_cons, List.map_map, List.map_nil, List.append_assoc,
      List.cons_append]
    rfl

lemma sameOutcome_flush (a : Acted) : SameOutcome (run env a [some .flush]) a := by
  cases ho : a.ok with
  | true =>
    have hs : run env a [some .flush] = a.next env .flush := step_some ho _
    rw [hs]
    exact ⟨rfl, ho.symm, rfl⟩
  | false =>
    rw [run_of_not_ok ho]
    exact ⟨rfl, rfl, rfl⟩

lemma sameOutcome_pieces (ws : List Str) : ∀ a : Acted,
    SameOutcome (run env a ((dropBlank ws).flatMap pieceEvents)) (run env a (docEvents false ws)) := by
  induction ws with
  | nil => exact fun a => ⟨rfl, rfl, rfl⟩
  | cons w ws ih =>
    intro a
    cases ws with
    | nil =>
      cases hw : blankText w with
      | true =>
        rw [dropBlank, docEvents, if_pos hw, if_pos hw]
        exact ⟨rfl, rfl, rfl⟩
      | false =>
        rw [dropBlank, docEvents, if_neg (by simp [hw]), if_neg (by simp [hw]), List.flatMap_singleton,
          pieceEvents_eq, run_append]
        exact sameOutcome_flush _
    | cons x ws =>
      have hd : dropBlank (w :: x :: ws) = w :: dropBlank (x :: ws) := rfl
      have hdoc : docEvents false (w :: x :: ws) = (bodyEvents false w ++ [some .flush]) ++ docEvents false
          (x :: ws) := by
        rw [List.append_assoc]
        rfl
      rw [hd, hdoc, List.flatMap_cons, run_append, run_append, pieceEvents_eq]
      exact ih _

lemma pieceEvents_ne_nil (w : Str) : pieceEvents w ≠ [] := by
  rw [pieceEvents]
  cases definition w with
  | none => exact List.cons_ne_nil _ _
  | some d => simp [PartDef.events]

lemma textEvents_eq_nil (text : Str) : textEvents text = [] ↔ blankText (noComments false text) = true := by
  have hpieces : textEvents text = [] ↔ pieces text = [] := by
    rw [textEvents, List.flatMap_eq_nil_iff]
    refine ⟨fun h => List.eq_nil_iff_forall_not_mem.mpr fun w hw => pieceEvents_ne_nil w (h w hw),
        fun h w hw => ?_⟩
    rw [h] at hw
    cases hw
  rw [hpieces, pieces]
  by_cases hc : ';' ∈ noComments false text
  · have hb : blankText (noComments false text) ≠ true := fun hb => notMem_blank hb (by decide) hc
    obtain ⟨u, v, h, hu⟩ := exists_cut hc
    obtain ⟨x, xs, hx⟩ := splitOn_ne_nil ';' v
    have hd : dropBlank ((noComments false text).splitOn ';') = u :: dropBlank (x :: xs) := by
      rw [h, splitOn_cons hu, hx]
      rfl
    rw [hd]
    exact iff_of_false (List.cons_ne_nil _ _) hb
  · rw [splitOn_single hc, dropBlank]
    by_cases hb : blankText (noComments false text) = true
    · rw [if_pos hb]
      exact iff_of_true rfl hb
    · rw [if_neg hb]
      exact iff_of_false (List.cons_ne_nil _ _) hb

end Meaning

end OpenSM.Partition.Text
