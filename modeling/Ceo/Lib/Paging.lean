import Mathlib.Data.List.Basic

/-!
# Paging

A reader goes down a list page by page. Each page answers with the part of the
list it went over and the cursor of the next page, or none at the end. If every
page goes over the next part of what its cursor leaves, the pages together go
over each element once and in order.
-/

namespace Ceo.Lib.Paging

variable {ε κ α β : Type}

structure Page (κ α β : Type) where
  cursor : Option κ
  visited : List α
  shown : List β
  next : Option κ

/-- One call after the other, each at the cursor the last page gave, until there is none. -/
def follow : List (Option κ → Except ε (Page κ α β)) → Option κ → Except ε (List (Page κ α β))
  | [], _ => .ok []
  | call :: calls, cursor =>
    match call cursor with
    | .error e => .error e
    | .ok page =>
      match page.next with
      | none => .ok [page]
      | some c => (follow calls (some c)).map (page :: ·)

/-- The page goes over the next part of what is left at its cursor. -/
structure Page.Exact (left : Option κ → List α) (page : Page κ α β) : Prop where
  ends : page.next = none → page.visited = left page.cursor
  goesOn : ∀ c, page.next = some c →
    page.visited ≠ [] ∧ left page.cursor = page.visited ++ left (some c)

/-- The page of a call at a cursor: exact, and the cursor of the next one is known. -/
structure Page.Served (left : Option κ → List α) (Known : κ → Prop) (Good : Page κ α β → Prop)
    (cursor : Option κ) (page : Page κ α β) : Prop where
  asked : page.cursor = cursor
  exact : page.Exact left
  known : ∀ c, page.next = some c → Known c
  good : Good page

def Serves (left : Option κ → List α) (Known : κ → Prop) (Good : Page κ α β → Prop)
    (call : Option κ → Except ε (Page κ α β)) (cursor : Option κ) : Prop :=
  ∀ page, call cursor = .ok page → page.Served left Known Good cursor

/-- **Following the cursors goes over the whole list once**, and gets to its end. -/
theorem follow_exact {left : Option κ → List α} {Known : κ → Prop} {Good : Page κ α β → Prop}
    {calls : List (Option κ → Except ε (Page κ α β))} {cursor : Option κ}
    {pages : List (Page κ α β)}
    (first : ∀ call ∈ calls.head?, Serves left Known Good call cursor)
    (later : ∀ call ∈ calls, ∀ c, Known c → Serves left Known Good call (some c))
    (enough : (left cursor).length < calls.length) (h : follow calls cursor = .ok pages) :
    pages.flatMap (·.visited) = left cursor ∧ (pages.getLast?.bind (·.next) = none ∧ pages ≠ []) ∧
      ∀ page ∈ pages, Good page := by
  induction calls generalizing cursor pages with
  | nil => cases enough
  | cons call calls ih =>
    have serves := first call rfl
    unfold follow at h
    cases hp : call cursor with
    | error e =>
      rw [hp] at h
      cases h
    | ok page =>
      simp only [hp] at h
      obtain ⟨hcur, exact, known, good⟩ := serves page hp
      cases hn : page.next with
      | none =>
        simp only [hn] at h
        cases h
        refine ⟨?_, ⟨by simpa using hn, by simp⟩, by simpa using good⟩
        rw [← hcur, List.flatMap_singleton, exact.ends hn]
      | some c =>
        simp only [hn] at h
        obtain ⟨nonempty, hleft⟩ := exact.goesOn c hn
        rw [hcur] at hleft
        cases hf : follow calls (some c) with
        | error e =>
          rw [hf] at h
          cases h
        | ok rest =>
          rw [hf] at h
          cases h
          have shorter : (left (some c)).length < calls.length := by
            have hpos := List.length_pos_iff.2 nonempty
            rw [hleft, List.length_append, List.length_cons] at enough
            omega
          obtain ⟨hv, ⟨hl, hne⟩, hg⟩ := ih
            (fun call' hc => later call' (by simp [List.mem_of_mem_head? hc]) c (known c hn))
            (fun call' hc => later call' (by simp [hc])) shorter hf
          refine ⟨?_, ⟨?_, by simp⟩, ?_⟩
          · rw [List.flatMap_cons, hv, hleft]
          · cases rest with
            | nil => exact absurd rfl hne
            | cons p ps => simpa [List.getLast?_cons_cons] using hl
          · intro p hp'
            rcases List.mem_cons.1 hp' with rfl | hp'
            · exact good
            · exact hg p hp'

/-- Following the cursors fails only where a call does. -/
theorem follow_error {calls : List (Option κ → Except ε (Page κ α β))} {cursor : Option κ} {e : ε}
    (h : follow calls cursor = .error e) : ∃ call ∈ calls, ∃ c, call c = .error e := by
  induction calls generalizing cursor with
  | nil => cases h
  | cons call calls ih =>
    unfold follow at h
    cases hp : call cursor with
    | error e' =>
      rw [hp] at h
      cases h
      exact ⟨call, by simp, cursor, hp⟩
    | ok page =>
      simp only [hp] at h
      cases hn : page.next with
      | none =>
        simp only [hn] at h
        cases h
      | some c =>
        simp only [hn] at h
        cases hf : follow calls (some c) with
        | ok rest =>
          rw [hf] at h
          cases h
        | error e' =>
          rw [hf] at h
          cases h
          obtain ⟨call', hc, c', he⟩ := ih hf
          exact ⟨call', by simp [hc], c', he⟩

end Ceo.Lib.Paging
