import DataShape.Proofs.Execution
import DataShape.Traversal

/-! # Walks of live parts

A live part is walked by position: each entry is visited as it is when its turn comes, and the part
must have as many entries as at first. Where the visits leave the part as it is, its entries are
visited as those of a list are.

* `visitEntries` — entries of a list are visited for as long as the visits ask for more.
* `exec_walkPart_still` — so are those of a part that stays as it is. -/

namespace DataShape

theorem exec_entriesOfSize {part : Part} {size : Nat} {w : World}
    (h : (w.partEntries part).length = size) :
    exec (entriesOfSize part size) w = (.ok (w.partEntries part), w) := by
  unfold entriesOfSize
  rw [exec_bind_ok (exec_get w), exec_ite, if_pos (by simpa using h)]
  rfl

theorem exec_entriesOfSize_of_ne {part : Part} {size : Nat} {w : World}
    (h : (w.partEntries part).length ≠ size) :
    exec (entriesOfSize part size) w = (.error .resized, w) := by
  unfold entriesOfSize
  rw [exec_bind_ok (exec_get w), exec_ite, if_neg (by simpa using h)]
  rfl

/-- Visit entries one by one, for as long as the visits ask for more. -/
def visitEntries {σ : Type} (visit : σ → Value × Value → Action (σ × Bool)) :
    Entries → σ → Action σ
  | [], s => pure s
  | entry :: rest, s => do
      let (s, more) ← visit s entry
      if more then visitEntries visit rest s else return s

/-- To visit all entries is to fold over them. -/
theorem visitEntries_eq_foldlM {σ : Type} (step : σ → Value × Value → Action σ)
    (entries : Entries) (s : σ) :
    visitEntries (fun s entry => do return (← step s entry, true)) entries s
      = entries.foldlM step s := by
  induction entries generalizing s with
  | nil => rfl
  | cons entry rest ih =>
    rw [visitEntries, List.foldlM_cons, bind_assoc]
    exact bind_congr fun s' => ih s'

/-- To check entries up to the first that does not pass is to check all of them. -/
theorem visitEntries_eq_allM (check : Value × Value → Action Bool) (entries : Entries) :
    visitEntries (fun _ entry => do
      let found ← check entry
      return (found, found)) entries true = entries.allM check := by
  induction entries with
  | nil => rfl
  | cons entry rest ih =>
    rw [visitEntries, List.allM, bind_assoc]
    refine bind_congr fun found => ?_
    cases found with
    | false => rfl
    | true => exact ih

section Still

variable {σ : Type} {visit : σ → Value × Value → Action (σ × Bool)} {S : World → Prop}
  {part : Part} {entries : Entries}

/-- **Walks of parts that stay.** A part that has the same entries in all worlds of a kind, which
the visits do not leave, is walked like a list of these entries. By induction on those that are
left. -/
theorem exec_walkPart_still (whole : ∀ u, S u → u.partEntries part = entries)
    (stays : ∀ e ∈ entries, ∀ s u, S u → S (exec (visit s e) u).2) (s : σ) {u : World} (h : S u) :
    exec (walkPart part visit s) u = exec (visitEntries visit entries s) u := by
  have sized : ∀ u, S u → exec (entriesOfSize part entries.length) u = (.ok entries, u) := by
    intro u h
    rw [exec_entriesOfSize (by rw [whole u h]), whole u h]
  have walked : ∀ rest front : Entries, front ++ rest = entries → ∀ s u, S u →
      exec (walkRest part entries.length visit rest.length s) u
        = exec (visitEntries visit rest s) u := by
    intro rest
    induction rest with
    | nil =>
      intro front _ s u h
      have ended : exec (discard (entriesOfSize part entries.length)) u = (.ok ⟨⟩, u) := by
        rw [exec_discard_eq, sized u h]
      rw [List.length_nil, walkRest, exec_bind_ok ended, visitEntries]
    | cons e rest ih =>
      intro front all s u h
      have position : entries.length - (rest.length + 1) = front.length := by simp [← all]
      have here : entries[front.length]? = some e := by simp [← all]
      have further := stays e (by simp [← all]) s u h
      rw [List.length_cons, walkRest, exec_bind_ok (sized u h), position, here, visitEntries]
      dsimp only
      rcases run : exec (visit s e) u with ⟨fault | ⟨s', more⟩, u'⟩
      · rw [exec_bind_error run, exec_bind_error run]
      · rw [run] at further
        rw [exec_bind_ok run, exec_bind_ok run]
        cases more with
        | false => rfl
        | true => exact ih (front ++ [e]) (by simpa using all) s' u' further
  unfold walkPart
  rw [exec_bind_ok (exec_get u), whole u h]
  exact walked entries [] rfl s u h

end Still

end DataShape
