import OpenSM.PartitionParse

/-! What the text of a partition file says: its comments deleted, its definitions split at `;`, each of them at its
first `:`, and these at `,`. A line ends a property too, as it does the flags of a group. -/

namespace OpenSM.Partition.Text

open Lib Lib.CString Lib.CBuffer
open Parse (isBlank gidOk Acted)

section Reference

def noComments : Bool → Str → Str
  | _, [] => []
  | cmt, c :: s =>
    if c = '\n' then c :: noComments false s
    else if cmt ∨ c = '#' then noComments true s
    else c :: noComments false s

def token (w : Str) : Token where
  name := trim isBlank (w.takeWhile (· != '='))
  val := if '=' ∈ w then some (trim isBlank (w.dropWhile (· != '=')).tail) else none

def tokens (w : Str) : List Token := (w.splitOn ',').map token

def entries : List Token → List Entry
  | [] => []
  | t :: ts =>
    if t.name = "mgid".toList then [.mgid (t.val.getD []) (if gidOk (t.val.getD []) then ts else [])]
    else if t.name = [] then entries ts
    else .port t :: entries ts

def properties (w : Str) : List Entry := (w.splitOn '\n').flatMap fun l => entries (tokens l)

def definition (w : Str) : Option PartDef :=
  if ':' ∈ w then
    match tokens (w.takeWhile (· != ':')) with
    | [] => none
    | t :: ts => some ⟨t, ts, properties (w.dropWhile (· != ':')).tail⟩
  else none

def blankText (w : Str) : Bool := w.all isBlank

def dropBlank : List Str → List Str
  | [] => []
  | [w] => if blankText w then [] else [w]
  | w :: ws => w :: dropBlank ws

def pieces (text : Str) : List Str := dropBlank ((noComments false text).splitOn ';')

def pieceEvents (w : Str) : List (Option Event) :=
  match definition w with
  | none => [none]
  | some d => d.events.map some

def textEvents (text : Str) : List (Option Event) := (pieces text).flatMap pieceEvents

end Reference

section Steps

variable (env : Env)

def step (a : Acted) (e : Option Event) : Acted := if a.ok then e.elim a.fail (a.next env) else a

def run (a : Acted) (es : List (Option Event)) : Acted := es.foldl (step env) a

/-- An event, and whether the text around it is such that the parser finds it where it is and goes on behind it. -/
structure Step where
  event : Option Event
  clean : Bool

/-- A group has a GID. Flags follow when it is one of a group; when it is not, none do, or no other definition
follows on the line. -/
def mgidClean (closed : Bool) (t : Token) (ts : List Token) : Bool :=
  t.val.isSome && if gidOk (t.val.getD []) then !ts.isEmpty else ts.isEmpty || !closed

def entrySteps (closed : Bool) : List Token → List Step
  | [] => []
  | t :: ts =>
    if t.name = "mgid".toList then
      [⟨some (.entry (.mgid (t.val.getD []) (if gidOk (t.val.getD []) then ts else []))), mgidClean closed t ts⟩]
    else if t.name = [] then entrySteps closed ts
    else ⟨some (.entry (.port t)), true⟩ :: entrySteps closed ts

def headSteps (closed colonAhead : Bool) (w : Str) : List Step :=
  if ':' ∈ w then
    match tokens (w.takeWhile (· != ':')) with
    | [] => []
    | t :: ts =>
      ts.map (fun t => ⟨some (.flag t), true⟩) ++
        ⟨some (.create t), true⟩ :: entrySteps closed (tokens (w.dropWhile (· != ':')).tail)
  else [⟨none, !colonAhead⟩]

def partSteps (closed colonAhead inDef : Bool) (w : Str) : List Step :=
  if inDef then entrySteps closed (tokens w) else headSteps closed colonAhead w

def colonAhead : List (Str × Bool) → Bool
  | [] => false
  | (w, closed) :: segs => ':' ∈ w || (!closed && colonAhead segs)

def segSteps : Bool → List (Str × Bool) → List Step
  | _, [] => []
  | inDef, (w, closed) :: segs =>
    if blankText w then (if closed then ⟨none, false⟩ :: segSteps false segs else segSteps inDef segs)
    else
      partSteps closed (!closed && colonAhead segs) inDef w ++ (if closed then [⟨some .flush, true⟩] else []) ++
        segSteps (!closed) segs

def marked : List Str → List (Str × Bool)
  | [] => []
  | [w] => [(w, false)]
  | w :: ws => (w, true) :: marked ws

def content (line : Str) : Str := line.takeWhile (· != '#')

def segments (line : Str) : List (Str × Bool) := marked ((content line).splitOn ';')

def fileSegs (text : Str) : List (Str × Bool) := (text.splitOn '\n').flatMap segments

/-- As far as there is no error, all steps are clean. -/
def Clean : Acted → List Step → Prop
  | _, [] => True
  | a, s :: ss => a.ok = true → s.clean = true ∧ Clean (step env a s.event) ss

variable {env} {a : Acted}

lemma step_some (h : a.ok = true) (e : Event) : step env a (some e) = a.next env e := if_pos h

lemma step_none (h : a.ok = true) : step env a none = a.fail := if_pos h

lemma run_of_not_ok (h : a.ok = false) (es : List (Option Event)) : run env a es = a := by
  induction es with
  | nil => rfl
  | cons e es ih =>
    have hs : step env a e = a := if_neg (by simp [h])
    exact (congrArg (run env · es) hs).trans ih

lemma run_append (a : Acted) (es es' : List (Option Event)) : run env a (es ++ es') = run env (run env a es) es' :=
  List.foldl_append

def runSteps (env : Env) (a : Acted) (ss : List Step) : Acted := run env a (ss.map Step.event)

lemma runSteps_append (a : Acted) (ss ss' : List Step) :
    runSteps env a (ss ++ ss') = runSteps env (runSteps env a ss) ss' := by
  rw [runSteps, List.map_append, run_append]
  rfl

lemma runSteps_of_not_ok (h : a.ok = false) (ss : List Step) : runSteps env a ss = a := run_of_not_ok h _

lemma clean_append {ss ss' : List Step} (h : Clean env a (ss ++ ss')) :
    Clean env a ss ∧ Clean env (runSteps env a ss) ss' := by
  induction ss generalizing a with
  | nil => exact ⟨trivial, h⟩
  | cons s ss ih =>
    cases ho : a.ok with
    | true =>
      obtain ⟨hs, h⟩ := h ho
      exact ⟨fun _ => ⟨hs, (ih h).1⟩, (ih h).2⟩
    | false =>
      refine ⟨fun h => absurd (ho ▸ h) Bool.false_ne_true, ?_⟩
      rw [runSteps_of_not_ok ho]
      cases ss' with
      | nil => trivial
      | cons s' ss' => exact fun h => absurd (ho ▸ h) Bool.false_ne_true

lemma clean_head {a : Acted} {x : Step} {ss : List Step} (h : Clean env a (x :: ss)) (ho : a.ok = true) :
    x.clean = true :=
  (h ho).1

lemma segSteps_blank {w : Str} (hw : blankText w = true) (inDef : Bool) (segs : List (Str × Bool)) :
    segSteps inDef ((w, false) :: segs) = segSteps inDef segs := if_pos hw

lemma segSteps_text {w : Str} {closed inDef : Bool} (hw : blankText w = false) (segs : List (Str × Bool)) :
    segSteps inDef ((w, closed) :: segs) = partSteps closed (!closed && colonAhead segs) inDef w ++
      (if closed then [⟨some .flush, true⟩] else []) ++ segSteps (!closed) segs := if_neg (by simp [hw])

end Steps

section Blanks

variable {a u v w : Str} {c : Char}

lemma takeWhile_ne (hc : c ∉ u) : (u ++ c :: v).takeWhile (· != c) = u := by
  rw [takeWhile_append_cons (by simp), List.takeWhile_eq_self_iff]
  intro x hx
  simpa using fun h : x = c => hc (h ▸ hx)

lemma dropWhile_ne (hc : c ∉ u) : ((u ++ c :: v).dropWhile (· != c)).tail = v := by
  have := List.takeWhile_append_dropWhile (p := (· != c)) (l := u ++ c :: v)
  rw [takeWhile_ne hc] at this
  rw [List.append_cancel_left this, List.tail_cons]

lemma exists_cut (hc : c ∈ w) : ∃ u v, w = u ++ c :: v ∧ c ∉ u := List.eq_append_cons_of_mem hc

lemma token_val (hu : '=' ∉ u) : token (u ++ '=' :: v) = ⟨trim isBlank u, some (trim isBlank v)⟩ := by
  rw [token, takeWhile_ne hu, dropWhile_ne hu, if_pos (by simp)]

lemma token_name (hw : '=' ∉ w) : token w = ⟨trim isBlank w, none⟩ := by
  rw [token, if_neg hw, List.takeWhile_eq_self_iff.mpr]
  intro x hx
  simpa using fun h : x = '=' => hw (h ▸ hx)

lemma splitOn_cons (hu : c ∉ u) : (u ++ c :: v).splitOn c = u :: v.splitOn c := by
  have hall : ∀ x ∈ u, (x == c) = false := fun x hx => beq_false_of_ne fun h => hu (h ▸ hx)
  exact List.splitOnP_append_cons_of_forall_mem hall _ (beq_self_eq_true c) _

lemma splitOn_single (hw : c ∉ w) : w.splitOn c = [w] :=
  List.splitOnP_eq_singleton fun _ hx => beq_false_of_ne fun h => hw (h ▸ hx)

lemma tokens_cons (hu : ',' ∉ u) : tokens (u ++ ',' :: v) = token u :: tokens v := by
  rw [tokens, splitOn_cons hu]
  rfl

lemma tokens_single (hw : ',' ∉ w) : tokens w = [token w] := by
  rw [tokens, splitOn_single hw]
  rfl

lemma notMem_blank (ha : blankText a = true) (hc : isBlank c = false) : c ∉ a := by
  intro h
  rw [blankText, List.all_eq_true] at ha
  rw [ha c h] at hc
  cases hc

lemma trim_blank_append (ha : blankText a = true) (w : Str) : trim isBlank (a ++ w) = trim isBlank w := by
  rw [blankText, List.all_eq_true] at ha
  rw [trim, List.dropWhile_append_of_pos ha]
  rfl

lemma trim_append_blank (ha : blankText a = true) (w : Str) : trim isBlank (w ++ a) = trim isBlank w := by
  rw [blankText, List.all_eq_true] at ha
  have hr : ∀ x : Str, (x ++ a).rdropWhile isBlank = x.rdropWhile isBlank := by
    intro x
    rw [List.rdropWhile, List.reverse_append, List.dropWhile_append_of_pos (by simpa using ha)]
    rfl
  rw [trim, trim, List.dropWhile_append]
  split
  · rename_i h
    rw [List.isEmpty_iff.mp h, List.dropWhile_eq_nil_iff.mpr ha]
  · exact hr _

lemma token_blank_append (ha : blankText a = true) (w : Str) : token (a ++ w) = token w := by
  by_cases he : '=' ∈ w
  · obtain ⟨u, v, rfl, hu⟩ := exists_cut he
    have hau : '=' ∉ a ++ u := by
      rw [List.mem_append]
      exact not_or_intro (notMem_blank ha (by decide)) hu
    rw [← List.append_assoc, token_val hau, token_val hu, trim_blank_append ha]
  · have haw : '=' ∉ a ++ w := by
      rw [List.mem_append]
      exact not_or_intro (notMem_blank ha (by decide)) he
    rw [token_name haw, token_name he, trim_blank_append ha]

lemma token_append_blank (ha : blankText a = true) (w : Str) : token (w ++ a) = token w := by
  by_cases he : '=' ∈ w
  · obtain ⟨u, v, rfl, hu⟩ := exists_cut he
    rw [List.append_assoc, List.cons_append, token_val hu, token_val hu, trim_append_blank ha]
  · have haw : '=' ∉ w ++ a := by
      rw [List.mem_append]
      exact not_or_intro he (notMem_blank ha (by decide))
    rw [token_name haw, token_name he, trim_append_blank ha]

lemma tokens_blank_append (ha : blankText a = true) (w : Str) : tokens (a ++ w) = tokens w := by
  have hna : ',' ∉ a := notMem_blank ha (by decide)
  by_cases hc : ',' ∈ w
  · obtain ⟨u, v, rfl, hu⟩ := exists_cut hc
    rw [← List.append_assoc, tokens_cons (by simp [hna, hu]), tokens_cons hu, token_blank_append ha]
  · rw [tokens_single (by simp [hna, hc]), tokens_single hc, token_blank_append ha]

lemma tokens_append_blank (ha : blankText a = true) (w : Str) : tokens (w ++ a) = tokens w := by
  have hna : ',' ∉ a := notMem_blank ha (by decide)
  induction hn : w.length using Nat.strong_induction_on generalizing w with
  | _ n ih =>
    by_cases hc : ',' ∈ w
    · obtain ⟨u, v, rfl, hu⟩ := exists_cut hc
      rw [List.append_assoc, List.cons_append, tokens_cons hu, tokens_cons hu,
        ih v.length (by rw [← hn]; simp; omega) v rfl]
    · rw [tokens_single (by simp [hna, hc]), tokens_single hc, token_append_blank ha]

def flagEvents (ts : List Token) : List (Option Event) := ts.map fun t => some (.flag t)

def openSteps (t : Token) (ts : List Token) : List Step :=
  ts.map (fun t => ⟨some (.flag t), true⟩) ++ [⟨some (.create t), true⟩]

lemma openSteps_event (t : Token) (ts : List Token) :
    (openSteps t ts).map Step.event = flagEvents ts ++ [some (.create t)] := by
  rw [openSteps, List.map_append, List.map_map]
  rfl

lemma headSteps_eq {closed ahead : Bool} (hu : ':' ∉ u) {t : Token} {ts : List Token} (ht : tokens u = t :: ts) :
    headSteps closed ahead (u ++ ':' :: v) = openSteps t ts ++ entrySteps closed (tokens v) := by
  rw [headSteps, if_pos (by simp), takeWhile_ne hu, dropWhile_ne hu, ht, openSteps, List.append_assoc]
  rfl

lemma headSteps_congr {closed ahead : Bool} {u u' v v' : Str} (hu : ':' ∉ u) (hu' : ':' ∉ u')
    (h : tokens u' = tokens u) (h' : tokens v' = tokens v) :
    headSteps closed ahead (u' ++ ':' :: v') = headSteps closed ahead (u ++ ':' :: v) := by
  rw [headSteps, headSteps, if_pos (by simp), if_pos (by simp), takeWhile_ne hu, takeWhile_ne hu', dropWhile_ne hu,
    dropWhile_ne hu', h, h']

lemma partSteps_blank_append (ha : blankText a = true) (closed ahead inDef : Bool) (w : Str) :
    partSteps closed ahead inDef (a ++ w) = partSteps closed ahead inDef w := by
  have hna : ':' ∉ a := notMem_blank ha (by decide)
  cases inDef with
  | true => exact congrArg (entrySteps closed) (tokens_blank_append ha w)
  | false =>
    simp only [partSteps, Bool.false_eq_true, if_false]
    by_cases hc : ':' ∈ w
    · obtain ⟨u, v, rfl, hu⟩ := exists_cut hc
      rw [← List.append_assoc]
      exact headSteps_congr hu (by simp [hna, hu]) (tokens_blank_append ha u) rfl
    · rw [headSteps, headSteps, if_neg (by simp [hna, hc]), if_neg hc]

lemma partSteps_append_blank (ha : blankText a = true) (closed ahead inDef : Bool) (w : Str) :
    partSteps closed ahead inDef (w ++ a) = partSteps closed ahead inDef w := by
  have hna : ':' ∉ a := notMem_blank ha (by decide)
  cases inDef with
  | true => exact congrArg (entrySteps closed) (tokens_append_blank ha w)
  | false =>
    simp only [partSteps, Bool.false_eq_true, if_false]
    by_cases hc : ':' ∈ w
    · obtain ⟨u, v, rfl, hu⟩ := exists_cut hc
      rw [List.append_assoc, List.cons_append]
      exact headSteps_congr hu hu rfl (tokens_append_blank ha v)
    · rw [headSteps, headSteps, if_neg (by simp [hna, hc]), if_neg hc]

lemma marked_cons (hu : ';' ∉ u) : marked ((u ++ ';' :: v).splitOn ';') = (u, true) :: marked (v.splitOn ';') := by
  rw [splitOn_cons hu]
  obtain ⟨w, ws, h⟩ := List.exists_cons_of_ne_nil (List.splitOnP_ne_nil (· == ';') v)
  rw [List.splitOn, h]
  rfl

lemma marked_single (ht : ';' ∉ t) : marked (t.splitOn ';') = [(t, false)] := by
  rw [splitOn_single ht]
  rfl

lemma blankText_append (u v : Str) : blankText (u ++ v) = (blankText u && blankText v) := List.all_append

end Blanks

end OpenSM.Partition.Text
