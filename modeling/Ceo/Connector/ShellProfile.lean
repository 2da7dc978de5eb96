import Ceo.Lib.Lines
import Mathlib.Data.List.Infix

/-!
# The completion block of a shell profile

`completion_manage.rs` keeps one block between two marker lines in a file that
the user owns. The line end of the block is chosen from the whole text, before
the edit and again when the state is asked for.
-/

namespace Ceo.Connector.ShellProfile

open Ceo.Lib.Lines

abbrev Text := List Char

inductive ShellKind where
  | bash
  | zsh
  | fish
  | powerShell
  deriving DecidableEq, Repr

/-! ### the block -/

def startMarker : Text := "# >>> ceo-connector completion >>>".toList

def endMarker : Text := "# <<< ceo-connector completion <<<".toList

def integrationLine : ShellKind → Text
  | .bash => "source <(COMPLETE=bash ceo-connector)".toList
  | .zsh => "source <(COMPLETE=zsh ceo-connector)".toList
  | .fish => "COMPLETE=fish ceo-connector | source".toList
  | .powerShell =>
    ("$env:COMPLETE = \"powershell\"; ceo-connector | Out-String | " ++
      "Invoke-Expression; Remove-Item Env:\\COMPLETE").toList

def lf : Text := ['\n']

def crlf : Text := ['\r', '\n']

def canonicalBlock (shell : ShellKind) (newline : Text) : Text :=
  startMarker ++ newline ++ integrationLine shell ++ newline ++ endMarker ++ newline

/-! ### the lines -/

structure LineSpan where
  text : Text
  start : Nat
  next : Nat
  deriving DecidableEq, Repr

def stripOne (c : Char) (t : Text) : Text := if t.getLast? = some c then t.dropLast else t

/-- A line without its `\n`, and without one `\r` before that. -/
def lineText (line : Text) : Text := stripOne '\r' (stripOne '\n' line)

def spansFrom (start : Nat) : List Text → List LineSpan
  | [] => []
  | line :: rest =>
    ⟨lineText line, start, start + line.length⟩ :: spansFrom (start + line.length) rest

def lineSpans (content : Text) : List LineSpan := spansFrom 0 (pieces '\n' content)

inductive Topology where
  | absent
  | region (start stop : Nat)
  | malformed
  deriving DecidableEq, Repr

/-- The lines with a text, and which ones they are. -/
def markers (text : Text) (lines : List LineSpan) : List (LineSpan × Nat) :=
  lines.zipIdx.filter fun line => line.1.text == text

/-- No marker line, one pair in order, or anything else. -/
def topology (content : Text) : Topology :=
  let lines := lineSpans content
  match markers startMarker lines, markers endMarker lines with
  | [], [] => .absent
  | [(start, i)], [(stop, j)] => if i < j then .region start.start stop.next else .malformed
  | _, _ => .malformed

def newlineFor (content : Text) : Text := if crlf <:+: content then crlf else lf

/-! ### the edits -/

inductive ProfileState where
  | notInstalled
  | installed
  | needsRepair
  | malformed
  deriving DecidableEq, Repr

/-- `content[start..end]` -/
def slice (content : Text) (start stop : Nat) : Text := (content.drop start).take (stop - start)

def profileState (content : Text) (shell : ShellKind) : ProfileState :=
  match topology content with
  | .absent => .notInstalled
  | .malformed => .malformed
  | .region start stop =>
    if slice content start stop = canonicalBlock shell (newlineFor content) then .installed
    else .needsRepair

inductive EditError where
  | malformed
  deriving DecidableEq, Repr

/-- The line end that a last line without one gets. -/
def terminator (content : Text) : Text :=
  if content ≠ [] ∧ content.getLast? ≠ some '\n' then newlineFor content else []

def appendBlock (content : Text) (shell : ShellKind) : Text :=
  content ++ terminator content ++ canonicalBlock shell (newlineFor content)

def installText (content : Text) (shell : ShellKind) : Except EditError Text :=
  match topology content with
  | .malformed => .error .malformed
  | .absent => .ok (appendBlock content shell)
  | .region start stop =>
    let block := canonicalBlock shell (newlineFor content)
    if slice content start stop = block then .ok content
    else .ok (content.take start ++ block ++ content.drop stop)

def uninstallText (content : Text) : Except EditError Text :=
  match topology content with
  | .malformed => .error .malformed
  | .absent => .ok content
  | .region start stop => .ok (content.take start ++ content.drop stop)

/-! ### marker lines -/

/-- `markers`, of lines that come after others. -/
def marked (text : Text) (start n : Nat) (lines : List Text) : List (LineSpan × Nat) :=
  ((spansFrom start lines).zipIdx n).filter fun line => line.1.text == text

theorem marked_cons (text : Text) (start n : Nat) (line : Text) (lines : List Text) :
    marked text start n (line :: lines) =
      if lineText line = text then
        (⟨lineText line, start, start + line.length⟩, n) ::
          marked text (start + line.length) (n + 1) lines
      else marked text (start + line.length) (n + 1) lines := by
  unfold marked
  rw [spansFrom, List.zipIdx_cons, List.filter_cons]
  simp only [beq_iff_eq]

theorem marked_append (text : Text) (start n : Nat) (A B : List Text) :
    marked text start n (A ++ B) =
      marked text start n A ++ marked text (start + A.flatten.length) (n + A.length) B := by
  induction A generalizing start n with
  | nil => rfl
  | cons line A ih =>
    rw [List.cons_append, marked_cons, marked_cons, ih, List.flatten_cons, List.length_append,
      List.length_cons]
    have hn : n + 1 + A.length = n + (A.length + 1) := by omega
    rw [Nat.add_assoc, hn]
    split_ifs <;> rfl

theorem marked_eq_nil {text : Text} {start n : Nat} {lines : List Text} :
    marked text start n lines = [] ↔ ∀ line ∈ lines, lineText line ≠ text := by
  induction lines generalizing start n with
  | nil => simp [marked, spansFrom]
  | cons line lines ih =>
    rw [marked_cons, List.forall_mem_cons]
    split_ifs with h
    · simp [h]
    · rw [ih]
      simp [h]

/-- One line has the text. -/
theorem marked_eq_single {text : Text} {start n : Nat} {lines : List Text} {m : LineSpan × Nat}
    (h : marked text start n lines = [m]) :
    ∃ A line C, lines = A ++ line :: C ∧ lineText line = text ∧
      (∀ l ∈ A, lineText l ≠ text) ∧ (∀ l ∈ C, lineText l ≠ text) ∧
      m = (⟨text, start + A.flatten.length, start + A.flatten.length + line.length⟩,
        n + A.length) := by
  induction lines generalizing start n with
  | nil => cases h
  | cons line lines ih =>
    rw [marked_cons] at h
    split_ifs at h with hl
    · obtain ⟨rfl, hrest⟩ := List.cons.inj h
      refine ⟨[], line, lines, rfl, hl, by simp, marked_eq_nil.1 hrest, ?_⟩
      rw [hl]
      rfl
    · obtain ⟨A, l, C, rfl, hl', hA, hC, rfl⟩ := ih h
      refine ⟨line :: A, l, C, rfl, hl', List.forall_mem_cons.2 ⟨hl, hA⟩, hC, ?_⟩
      simp only [List.flatten_cons, List.length_append, List.length_cons, Prod.mk.injEq,
        LineSpan.mk.injEq, true_and]
      omega

/-- No line is a marker. -/
def Unmarked (lines : List Text) : Prop :=
  ∀ line ∈ lines, lineText line ≠ startMarker ∧ lineText line ≠ endMarker

theorem Unmarked.append {A B : List Text} (hA : Unmarked A) (hB : Unmarked B) : Unmarked (A ++ B) :=
  fun l hl => (List.mem_append.1 hl).elim (hA l) (hB l)

theorem markers_start (content : Text) :
    markers startMarker (lineSpans content) = marked startMarker 0 0 (pieces '\n' content) := rfl

theorem markers_end (content : Text) :
    markers endMarker (lineSpans content) = marked endMarker 0 0 (pieces '\n' content) := rfl

theorem topology_absent {content : Text} :
    topology content = .absent ↔ Unmarked (pieces '\n' content) := by
  have hnil : topology content = .absent ↔ marked startMarker 0 0 (pieces '\n' content) = [] ∧
      marked endMarker 0 0 (pieces '\n' content) = [] := by
    unfold topology
    dsimp only
    rw [markers_start, markers_end]
    split
    · next hs he => simp [hs, he]
    · next hs he =>
      rw [hs]
      split_ifs <;> simp
    · next h _ =>
      constructor
      · intro h
        cases h
      · rintro ⟨hs, he⟩
        exact absurd he (h hs)
  rw [hnil, marked_eq_nil, marked_eq_nil]
  exact ⟨fun h l hl => ⟨h.1 l hl, h.2 l hl⟩, fun h => ⟨fun l hl => (h l hl).1, fun l hl => (h l hl).2⟩⟩

/-- The markers of a region: the lines around it and inside are none. -/
theorem topology_region {content : Text} {start stop : Nat}
    (h : topology content = .region start stop) :
    ∃ A s B e C, pieces '\n' content = A ++ (s :: B ++ [e]) ++ C ∧ lineText s = startMarker ∧
      lineText e = endMarker ∧ Unmarked A ∧ Unmarked C ∧ start = A.flatten.length ∧
      stop = (A ++ (s :: B ++ [e])).flatten.length := by
  unfold topology at h
  dsimp only at h
  rw [markers_start, markers_end] at h
  split at h
  · cases h
  · next m i m' j hs he =>
    split at h
    · next hij =>
      obtain ⟨rfl, rfl⟩ := Topology.region.inj h
      obtain ⟨A, s, C, hL, hstart, hA, hC, hm⟩ := marked_eq_single hs
      obtain ⟨A', e, C', hL', hend, hA', hC', hm'⟩ := marked_eq_single he
      obtain ⟨rfl, rfl⟩ := Prod.mk.inj hm
      obtain ⟨rfl, rfl⟩ := Prod.mk.inj hm'
      have hlen : A.length < A'.length := by omega
      -- the end marker is behind the start marker
      obtain ⟨B, rfl, rfl⟩ : ∃ B, A' = A ++ s :: B ∧ C = B ++ e :: C' := by
        rw [hL'] at hL
        rcases List.append_eq_append_iff.1 hL with ⟨as, rfl, hr⟩ | ⟨as, rfl, hr⟩
        · rw [List.length_append] at hlen
          omega
        · cases as with
          | nil =>
            rw [List.append_nil] at hlen
            omega
          | cons x as =>
            obtain ⟨rfl, rfl⟩ := List.cons.inj hr
            exact ⟨as, rfl, rfl⟩
      refine ⟨A, s, B, e, C', by rw [hL']; simp, hstart, hend, fun l hl => ⟨hA l hl, hA' l ?_⟩,
        fun l hl => ⟨hC l ?_, hC' l hl⟩, by simp, ?_⟩
      · exact List.mem_append_left _ hl
      · exact List.mem_append_right _ (List.mem_cons_of_mem _ hl)
      · simp
        omega
    · cases h
  · cases h

/-- A text with a block falls apart at the ends of its lines. -/
theorem region_split {content : Text} {start stop : Nat}
    (h : topology content = .region start stop) :
    ∃ x r y, content = x ++ r ++ y ∧ start = x.length ∧ stop = (x ++ r).length ∧ r ≠ [] ∧
      Ended '\n' x ∧ Unmarked (pieces '\n' x) ∧ Unmarked (pieces '\n' y) := by
  obtain ⟨A, s, B, e, C, hL, -, -, hA, hC, rfl, rfl⟩ := topology_region h
  rw [List.append_assoc] at hL
  obtain ⟨x, t, rfl, hx, rfl, ht⟩ := pieces_split hL (by simp)
  have hrne : (s :: B ++ [e]).flatten ≠ [] := by
    intro hnil
    have hs : s = [] := by
      rw [List.cons_append, List.flatten_cons] at hnil
      exact (List.append_eq_nil_iff.1 hnil).1
    have hno : [] ∉ pieces '\n' t := pieces_nonempty t
    exact hno (ht ▸ by simp [hs])
  have hflat (r : Text) (hr : pieces '\n' r = s :: B ++ [e]) : (s :: B ++ [e]).flatten = r := by
    rw [← hr, flatten_pieces]
  by_cases hCne : C = []
  · subst hCne
    rw [List.append_nil] at ht
    refine ⟨x, t, [], by simp, by rw [flatten_pieces], ?_, ?_, hx, hA, by simp [pieces, Unmarked]⟩
    · rw [List.flatten_append, flatten_pieces, hflat t ht]
    · rwa [← hflat t ht]
  · obtain ⟨r, y, rfl, -, hr, rfl⟩ := pieces_split ht hCne
    refine ⟨x, r, y, by simp, by rw [flatten_pieces], ?_, ?_, hx, hA, hC⟩
    · rw [List.flatten_append, flatten_pieces, hflat r hr]
    · rwa [← hflat r hr]

/-! ### a canonical block between two texts -/

theorem marker_facts : startMarker ≠ endMarker ∧ '\n' ∉ startMarker ∧ '\n' ∉ endMarker ∧
    '\r' ∉ startMarker ∧ '\r' ∉ endMarker := by decide

theorem integrationLine_facts (shell : ShellKind) : integrationLine shell ≠ startMarker ∧
    integrationLine shell ≠ endMarker ∧ '\n' ∉ integrationLine shell ∧
    '\r' ∉ integrationLine shell := by
  cases shell <;> decide

theorem newlineFor_cases (content : Text) : newlineFor content = lf ∨ newlineFor content = crlf := by
  unfold newlineFor
  split_ifs
  · exact .inr rfl
  · exact .inl rfl

theorem stripOne_append (c : Char) (t : Text) : stripOne c (t ++ [c]) = t := by
  simp [stripOne]

theorem stripOne_not_mem {c : Char} {t : Text} (h : c ∉ t) : stripOne c t = t :=
  if_neg fun hlast => h (List.mem_of_getLast? hlast)

theorem lineText_newline {t newline : Text} (hn : newline = lf ∨ newline = crlf)
    (ht : '\r' ∉ t) : lineText (t ++ newline) = t := by
  unfold lineText
  rcases hn with rfl | rfl
  · rw [lf, stripOne_append, stripOne_not_mem ht]
  · have : t ++ crlf = t ++ ['\r'] ++ ['\n'] := by simp [crlf]
    rw [this, stripOne_append, stripOne_append]

theorem pieces_newline {t newline : Text} (hn : newline = lf ∨ newline = crlf) (ht : '\n' ∉ t)
    (rest : Text) : pieces '\n' (t ++ newline ++ rest) = (t ++ newline) :: pieces '\n' rest := by
  rcases hn with rfl | rfl
  · have : t ++ lf ++ rest = t ++ '\n' :: rest := by simp [lf]
    rw [this, pieces_cons ht]
    rfl
  · have : t ++ crlf ++ rest = (t ++ ['\r']) ++ '\n' :: rest := by simp [crlf]
    rw [this, pieces_cons (by simpa using ht)]
    simp [crlf]

section

variable {x y newline : Text} (shell : ShellKind)

theorem pieces_block (hn : newline = lf ∨ newline = crlf) (hx : Ended '\n' x) :
    pieces '\n' (x ++ canonicalBlock shell newline ++ y) =
      pieces '\n' x ++ ([startMarker ++ newline, integrationLine shell ++ newline,
        endMarker ++ newline] ++ pieces '\n' y) := by
  obtain ⟨-, hs, he, -, -⟩ := marker_facts
  have hsplit : x ++ canonicalBlock shell newline ++ y =
      x ++ (startMarker ++ newline ++ (integrationLine shell ++ newline ++
        (endMarker ++ newline ++ y))) := by
    simp [canonicalBlock]
  rw [hsplit, pieces_append hx, pieces_newline hn hs, pieces_newline hn
    (integrationLine_facts shell).2.2.1, pieces_newline hn he]
  rfl

/-- The block is found where it stands. -/
theorem topology_block (hn : newline = lf ∨ newline = crlf) (hx : Ended '\n' x)
    (mx : Unmarked (pieces '\n' x)) (my : Unmarked (pieces '\n' y)) :
    topology (x ++ canonicalBlock shell newline ++ y) =
      .region x.length (x ++ canonicalBlock shell newline).length := by
  obtain ⟨hne, -, -, hs, he⟩ := marker_facts
  obtain ⟨is, ie, -, hi⟩ := integrationLine_facts shell
  have nil {text : Text} {start n : Nat} {L : List Text} (h : ∀ l ∈ L, lineText l ≠ text) :
      marked text start n L = [] := marked_eq_nil.2 h
  unfold topology
  dsimp only
  rw [markers_start, markers_end, pieces_block shell hn hx, marked_append, marked_append,
    marked_append, marked_append, nil fun l hl => (mx l hl).1, nil fun l hl => (mx l hl).2,
    nil fun l hl => (my l hl).1, nil fun l hl => (my l hl).2]
  simp only [marked_cons, lineText_newline hn hs, lineText_newline hn he, lineText_newline hn hi,
    if_neg is, if_neg ie, if_neg hne, if_neg hne.symm, if_pos, flatten_pieces]
  simp only [marked, spansFrom, canonicalBlock, List.zipIdx_nil, List.filter_nil, List.nil_append,
    List.append_nil, List.length_append]
  rw [if_pos (by omega)]
  simp only [Nat.zero_add, Nat.add_assoc]

theorem slice_block {r : Text} : slice (x ++ r ++ y) x.length (x ++ r).length = r := by
  unfold slice
  rw [List.append_assoc, List.drop_left, List.length_append, Nat.add_sub_cancel_left, List.take_left]

end

/-! ### the choice of the line end -/

theorem crlf_append {s t : Text} : crlf <:+: s ++ t ↔
    crlf <:+: s ∨ crlf <:+: t ∨ (s.getLast? = some '\r' ∧ t.head? = some '\n') := by
  induction s with
  | nil => simp [crlf]
  | cons c cs ih =>
    rw [List.cons_append, List.infix_cons_iff, ih, List.infix_cons_iff]
    cases cs with
    | nil =>
      cases t with
      | nil => simp [crlf, List.cons_prefix_cons]
      | cons d ds =>
        simp only [crlf, List.nil_append, List.cons_prefix_cons, List.nil_prefix, and_true,
          List.infix_nil, List.getLast?_nil, List.getLast?_singleton, List.head?_cons,
          Option.some.injEq, List.cons_ne_nil, List.prefix_nil, and_false, false_or, reduceCtorEq,
          false_and, or_false]
        rw [or_comm, eq_comm (b := c), eq_comm (b := d)]
    | cons d ds => simp [crlf, List.cons_prefix_cons, or_assoc]

theorem crlf_not_infix {t : Text} (h : '\r' ∉ t) : ¬ crlf <:+: t :=
  fun hin => h (hin.subset (by simp [crlf]))

theorem newlineFor_of_infix {s t : Text} (hs : crlf <:+: s) (hst : s <:+: t) : newlineFor t = crlf :=
  if_pos (hs.trans hst)

theorem block_lf_no_cr (shell : ShellKind) : '\r' ∉ canonicalBlock shell lf := by
  obtain ⟨-, -, -, hs, he⟩ := marker_facts
  have hi := (integrationLine_facts shell).2.2.2
  unfold canonicalBlock
  simp [hs, he, hi, lf]

theorem block_head (shell : ShellKind) (newline : Text) :
    (canonicalBlock shell newline).head? = some '#' := rfl

theorem block_crlf (shell : ShellKind) : crlf <:+: canonicalBlock shell crlf := by
  unfold canonicalBlock
  exact (List.suffix_append _ _).isInfix

theorem block_last (shell : ShellKind) : (canonicalBlock shell lf).getLast? = some '\n' := by
  unfold canonicalBlock
  rw [List.getLast?_append]
  rfl

/-- The line end of a block is that of the text it is in, unless `\r\n` is outside of it only. -/
theorem newlineFor_block {x y newline : Text} (shell : ShellKind)
    (hn : newline = lf ∨ newline = crlf) (hlf : newline = lf → ¬ crlf <:+: x ∧ ¬ crlf <:+: y) :
    newlineFor (x ++ canonicalBlock shell newline ++ y) = newline := by
  rcases hn with rfl | rfl
  · obtain ⟨hx, hy⟩ := hlf rfl
    refine if_neg ?_
    rw [crlf_append, crlf_append]
    rintro ((h | h | ⟨-, h⟩) | h | ⟨h, -⟩)
    · exact hx h
    · exact crlf_not_infix (block_lf_no_cr shell) h
    · rw [block_head] at h
      exact absurd h (by decide)
    · exact hy h
    · rw [List.getLast?_append, block_last] at h
      exact absurd (Option.some.inj h) (by decide)
  · exact newlineFor_of_infix (block_crlf shell) ⟨x, y, rfl⟩

/-! ### a last line without an end -/

theorem terminator_ended {content : Text} (h : Ended '\n' content) : terminator content = [] := by
  refine if_neg ?_
  rintro ⟨hne, hlast⟩
  exact h.elim hne hlast

theorem ended_terminator (content : Text) : Ended '\n' (content ++ terminator content) := by
  by_cases h : Ended '\n' content
  · rwa [terminator_ended h, List.append_nil]
  · have hterm : terminator content = newlineFor content :=
      if_pos ⟨fun hnil => h (.inl hnil), fun hlast => h (.inr hlast)⟩
    rw [hterm]
    rcases newlineFor_cases content with hn | hn <;> rw [hn]
    · exact ended_append content
    · exact .inr (by simp [crlf])

/-- A line end does not make a marker of a line that is none. -/
theorem lineText_terminated {line newline marker : Text} (hn : newline = lf ∨ newline = crlf)
    (hline : '\n' ∉ line) (hcr : '\r' ∉ marker) (h : lineText line ≠ marker) :
    lineText (line ++ newline) ≠ marker := by
  have hplain : lineText line = stripOne '\r' line := by
    unfold lineText
    rw [stripOne_not_mem hline]
  rcases hn with rfl | rfl
  · unfold lineText
    rwa [lf, stripOne_append, ← hplain]
  · have happ : line ++ crlf = line ++ ['\r'] ++ ['\n'] := by simp [crlf]
    unfold lineText
    rw [happ, stripOne_append, stripOne_append]
    rintro rfl
    rw [hplain, stripOne_not_mem hcr] at h
    exact h rfl

theorem unmarked_terminated {content : Text} (h : Unmarked (pieces '\n' content)) :
    Unmarked (pieces '\n' (content ++ terminator content)) := by
  by_cases hended : Ended '\n' content
  · rwa [terminator_ended hended, List.append_nil]
  · obtain ⟨-, -, -, hs, he⟩ := marker_facts
    have hterm : terminator content = newlineFor content :=
      if_pos ⟨fun hnil => hended (.inl hnil), fun hlast => hended (.inr hlast)⟩
    have hn := newlineFor_cases content
    rw [hterm]
    generalize newlineFor content = newline at hn
    obtain ⟨x, z, rfl, hx, hz, hne⟩ := exists_last hended
    rw [pieces_append hx, pieces_single hz hne] at h
    have hlast : pieces '\n' (z ++ newline) = [z ++ newline] := by
      have := pieces_newline hn hz []
      rwa [List.append_nil] at this
    rw [List.append_assoc, pieces_append hx, hlast]
    refine Unmarked.append (fun l hl => h l (List.mem_append_left _ hl)) ?_
    intro l hl
    obtain rfl := List.mem_singleton.1 hl
    obtain ⟨h1, h2⟩ := h z (by simp)
    exact ⟨lineText_terminated hn hz hs h1, lineText_terminated hn hz he h2⟩

/-! ### result -/

/-- What an install leaves before and behind the block. -/
def around (content : Text) : Text × Text :=
  match topology content with
  | .region start stop => (content.take start, content.drop stop)
  | _ => (content ++ terminator content, [])

/-- The text is taken back. The block is put where it was, or at the end; what is around it stays
and is what an uninstall gives. -/
structure Reversible (content : Text) (shell : ShellKind) : Prop where
  refused : installText content shell = .error .malformed ↔ topology content = .malformed
  installed : ∀ out, installText content shell = .ok out → profileState out shell = .installed
  again : ∀ out, installText content shell = .ok out → installText out shell = .ok out
  kept : ∀ out, installText content shell = .ok out →
    out = (around content).1 ++ canonicalBlock shell (newlineFor content) ++ (around content).2
  back : ∀ out, installText content shell = .ok out →
    uninstallText out = .ok ((around content).1 ++ (around content).2)
  removed : ∀ out, uninstallText content = .ok out →
    topology out = .absent ∧ uninstallText out = .ok out

section

variable {content : Text} {shell : ShellKind}

/-- The lines around the block: they end where it starts, and none is a marker. -/
theorem around_spec (h : topology content ≠ .malformed) :
    Ended '\n' (around content).1 ∧ Unmarked (pieces '\n' (around content).1) ∧
      Unmarked (pieces '\n' (around content).2) := by
  unfold around
  cases ht : topology content with
  | absent =>
    exact ⟨ended_terminator content, unmarked_terminated (topology_absent.1 ht),
      by simp [pieces, Unmarked]⟩
  | region start stop =>
    obtain ⟨x, r, y, rfl, rfl, rfl, -, hx, mx, my⟩ := region_split ht
    dsimp only
    rw [List.drop_left, List.append_assoc, List.take_left]
    exact ⟨hx, mx, my⟩
  | malformed => exact absurd ht h

theorem install_eq (h : topology content ≠ .malformed) : installText content shell =
    .ok ((around content).1 ++ canonicalBlock shell (newlineFor content) ++ (around content).2) := by
  unfold installText around
  cases ht : topology content with
  | absent =>
    dsimp only
    rw [List.append_nil]
    rfl
  | region start stop =>
    dsimp only
    split_ifs with hslice
    · obtain ⟨x, r, y, rfl, rfl, rfl, -⟩ := region_split ht
      rw [slice_block] at hslice
      rw [← hslice, List.drop_left, List.append_assoc, List.take_left, List.append_assoc]
    · rfl
  | malformed => exact absurd ht h

theorem install_malformed :
    installText content shell = .error .malformed ↔ topology content = .malformed := by
  constructor
  · intro h
    by_contra ht
    rw [install_eq ht] at h
    cases h
  · intro h
    unfold installText
    rw [h]

theorem topology_installed (h : topology content ≠ .malformed) :
    topology ((around content).1 ++ canonicalBlock shell (newlineFor content) ++
      (around content).2) =
      .region (around content).1.length
        ((around content).1 ++ canonicalBlock shell (newlineFor content)).length := by
  obtain ⟨hended, hx, hy⟩ := around_spec h
  exact topology_block shell (newlineFor_cases content) hended hx hy

theorem block_inj {newline newline' : Text} (hn : newline = lf ∨ newline = crlf)
    (hn' : newline' = lf ∨ newline' = crlf)
    (h : canonicalBlock shell newline = canonicalBlock shell newline') : newline = newline' := by
  have hcr : '\r' ∈ canonicalBlock shell crlf := (block_crlf shell).subset (by simp [crlf])
  rcases hn with rfl | rfl <;> rcases hn' with rfl | rfl
  · rfl
  · exact absurd (h ▸ hcr) (block_lf_no_cr shell)
  · exact absurd (h ▸ hcr) (block_lf_no_cr shell)
  · rfl

theorem state_installed_iff (h : topology content ≠ .malformed) :
    profileState ((around content).1 ++ canonicalBlock shell (newlineFor content) ++
      (around content).2) shell = .installed ↔
    newlineFor ((around content).1 ++ canonicalBlock shell (newlineFor content) ++
      (around content).2) = newlineFor content := by
  unfold profileState
  rw [topology_installed h]
  dsimp only
  rw [slice_block]
  constructor
  · intro hstate
    split_ifs at hstate with heq
    exact (block_inj (newlineFor_cases _) (newlineFor_cases _) heq).symm
  · intro heq
    rw [heq, if_pos rfl]

theorem install_of_installed (h : profileState content shell = .installed) :
    installText content shell = .ok content := by
  unfold profileState at h
  unfold installText
  cases ht : topology content with
  | absent =>
    rw [ht] at h
    cases h
  | malformed =>
    rw [ht] at h
    cases h
  | region start stop =>
    rw [ht] at h
    dsimp only at h ⊢
    split_ifs at h with hslice
    rw [if_pos hslice]

theorem uninstall_installed (h : topology content ≠ .malformed) :
    uninstallText ((around content).1 ++ canonicalBlock shell (newlineFor content) ++
      (around content).2) = .ok ((around content).1 ++ (around content).2) := by
  unfold uninstallText
  rw [topology_installed h]
  dsimp only
  rw [List.drop_left, List.append_assoc, List.take_left]

theorem uninstall_absent {out : Text} (h : uninstallText content = .ok out) :
    topology out = .absent ∧ uninstallText out = .ok out := by
  have habsent : topology out = .absent := by
    unfold uninstallText at h
    cases ht : topology content with
    | absent =>
      rw [ht] at h
      rwa [← Except.ok.inj h]
    | malformed =>
      rw [ht] at h
      cases h
    | region start stop =>
      rw [ht] at h
      obtain ⟨x, r, y, rfl, rfl, rfl, -, hx, mx, my⟩ := region_split ht
      rw [← Except.ok.inj h, List.drop_left, List.append_assoc, List.take_left, topology_absent,
        pieces_append hx]
      exact mx.append my
  refine ⟨habsent, ?_⟩
  unfold uninstallText
  rw [habsent]

/-- The last line ends in a `\r` that the line end of the block makes a `\r\n` of, the first one. -/
def EndsInCr (content : Text) : Prop :=
  topology content = .absent ∧ ¬ crlf <:+: content ∧ content.getLast? = some '\r'

theorem newlineFor_lf : newlineFor content = lf ↔ ¬ crlf <:+: content := by
  unfold newlineFor
  split_ifs with h
  · exact ⟨fun heq => absurd heq (by decide), fun hno => absurd h hno⟩
  · exact ⟨fun _ => h, fun _ => rfl⟩

theorem newlineFor_around (h : topology content ≠ .malformed) (hcr : ¬ EndsInCr content)
    (hlf : newlineFor content = lf) :
    ¬ crlf <:+: (around content).1 ∧ ¬ crlf <:+: (around content).2 := by
  have hno := newlineFor_lf.1 hlf
  unfold around
  cases ht : topology content with
  | region start stop =>
    exact ⟨fun h => hno (h.trans (List.take_prefix _ _).isInfix),
      fun h => hno (h.trans (List.drop_suffix _ _).isInfix)⟩
  | absent =>
    refine ⟨?_, crlf_not_infix List.not_mem_nil⟩
    rw [crlf_append]
    rintro (hin | hin | ⟨hlast, -⟩)
    · exact hno hin
    · refine crlf_not_infix ?_ hin
      unfold terminator
      split_ifs
      · rw [hlf]
        decide
      · exact List.not_mem_nil
    · exact hcr ⟨ht, hno, hlast⟩
  | malformed => exact absurd ht h

theorem crlf_around (h : EndsInCr content) : newlineFor content = lf ∧ crlf <:+: (around content).1 := by
  obtain ⟨ht, hno, hlast⟩ := h
  have hlf := newlineFor_lf.2 hno
  refine ⟨hlf, ?_⟩
  have hterm : terminator content = lf := by
    refine (if_pos ⟨?_, ?_⟩).trans hlf
    · rintro rfl
      cases hlast
    · rw [hlast]
      decide
  unfold around
  rw [ht]
  dsimp only
  rw [crlf_append, hterm]
  exact .inr (.inr ⟨hlast, rfl⟩)

/-- Editing is reversible unless the text ends so. -/
theorem reversible_iff (content : Text) (shell : ShellKind) :
    Reversible content shell ↔ ¬ EndsInCr content := by
  constructor
  · intro h hcr
    have ht : topology content ≠ .malformed := by
      rw [hcr.1]
      exact fun h => by cases h
    have hstate := (state_installed_iff ht).1 (h.installed _ (install_eq ht))
    obtain ⟨hlf, hin⟩ := crlf_around hcr
    rw [hlf, newlineFor_lf] at hstate
    exact hstate (hin.trans ⟨[], _, by rw [List.nil_append, List.append_assoc]⟩)
  · intro hcr
    have result {out : Text} (hout : installText content shell = .ok out) :
        topology content ≠ .malformed ∧ out =
          (around content).1 ++ canonicalBlock shell (newlineFor content) ++ (around content).2 := by
      have ht : topology content ≠ .malformed := by
        intro hm
        rw [install_malformed.2 hm] at hout
        cases hout
      rw [install_eq ht] at hout
      exact ⟨ht, (Except.ok.inj hout).symm⟩
    have installed {out : Text} (hout : installText content shell = .ok out) :
        profileState out shell = .installed := by
      obtain ⟨ht, rfl⟩ := result hout
      exact (state_installed_iff ht).2 (newlineFor_block shell (newlineFor_cases content)
        (newlineFor_around ht hcr))
    refine ⟨install_malformed, fun out => installed,
      fun out hout => install_of_installed (installed hout), fun out hout => (result hout).2,
      fun out hout => ?_, fun out => uninstall_absent⟩
    obtain ⟨ht, rfl⟩ := result hout
    exact uninstall_installed ht

end

/-- A text whose only line ends in a `\r`. -/
theorem install_twice_differs : ∃ out, installText ['a', '\r'] .bash = .ok out ∧
    profileState out .bash = .needsRepair ∧ installText out .bash ≠ .ok out ∧
    ¬ Reversible ['a', '\r'] .bash := by
  refine ⟨appendBlock ['a', '\r'] .bash, by decide +kernel, by decide +kernel, by decide +kernel,
    fun h => ?_⟩
  have := h.installed (appendBlock ['a', '\r'] .bash) (by decide +kernel)
  revert this
  decide +kernel

end Ceo.Connector.ShellProfile
