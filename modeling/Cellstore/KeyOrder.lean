import Cellstore.Text.Utf8

/-! Strict total orders that are decided by a function.
Bytes are ordered by value, texts by code point, and sequences lexicographically, so a
sequence comes before every longer one that it begins. -/
namespace Cellstore

class KeyOrder (κ : Type) where
  lt : κ → κ → Bool
  irrefl : ∀ a, lt a a = false
  trans : ∀ a b c, lt a b = true → lt b c = true → lt a c = true
  connected : ∀ a b, lt a b = false → lt b a = false → a = b

namespace KeyOrder

theorem asymm {κ : Type} [KeyOrder κ] {a b : κ} (h : lt a b = true) : lt b a = false := by
  cases back : lt b a with
  | false => rfl
  | true => exact absurd (trans a b a h back) (by simp [irrefl])

theorem ne_of_lt {κ : Type} [KeyOrder κ] {a b : κ} (h : lt a b = true) : a ≠ b := by
  intro same
  subst same
  simp [irrefl] at h

def listLt {α : Type} [KeyOrder α] : List α → List α → Bool
  | _, [] => false
  | [], _ :: _ => true
  | a :: as, b :: bs => lt a b || (!lt b a && listLt as bs)

theorem listLt_irrefl {α : Type} [KeyOrder α] (s : List α) : listLt s s = false := by
  induction s with
  | nil => rfl
  | cons a as ih => simp [listLt, irrefl, ih]

theorem listLt_trans {α : Type} [KeyOrder α] (s t u : List α) (first : listLt s t = true)
    (second : listLt t u = true) : listLt s u = true := by
  induction s generalizing t u with
  | nil =>
    cases u with
    | nil => cases t <;> simp [listLt] at second
    | cons c cs => rfl
  | cons a as ih =>
    cases t with
    | nil => simp [listLt] at first
    | cons b bs =>
      cases u with
      | nil => simp [listLt] at second
      | cons c cs =>
        simp only [listLt, Bool.or_eq_true, Bool.and_eq_true, Bool.not_eq_true'] at *
        rcases first with ab | ⟨ba, rest⟩
        · rcases second with bc | ⟨cb, _⟩
          · exact Or.inl (trans a b c ab bc)
          · left
            cases bc : lt b c with
            | true => exact trans a b c ab bc
            | false => rw [← connected b c bc cb]; exact ab
        · cases ab : lt a b with
          | true =>
            rcases second with bc | ⟨cb, _⟩
            · exact Or.inl (trans a b c ab bc)
            · left
              cases bc : lt b c with
              | true => exact trans a b c ab bc
              | false => rw [← connected b c bc cb]; exact ab
          | false =>
            have same : a = b := connected a b ab ba
            subst same
            rcases second with bc | ⟨cb, more⟩
            · exact Or.inl bc
            · exact Or.inr ⟨cb, ih bs cs rest more⟩

theorem listLt_connected {α : Type} [KeyOrder α] (s t : List α) (first : listLt s t = false)
    (second : listLt t s = false) : s = t := by
  induction s generalizing t with
  | nil =>
    cases t with
    | nil => rfl
    | cons b bs => simp [listLt] at first
  | cons a as ih =>
    cases t with
    | nil => simp [listLt] at second
    | cons b bs =>
      simp only [listLt, Bool.or_eq_false_iff, Bool.and_eq_false_iff, Bool.not_eq_false'] at *
      obtain ⟨ab, restFirst⟩ := first
      obtain ⟨ba, restSecond⟩ := second
      have same : a = b := connected a b ab ba
      subst same
      simp only [irrefl, Bool.false_eq_true, false_or] at restFirst restSecond
      rw [ih bs restFirst restSecond]

instance : KeyOrder UInt8 where
  lt a b := decide (a.toNat < b.toNat)
  irrefl a := by simp
  trans a b c h k := by simp at *; omega
  connected a b h k := by simp at *; exact UInt8.toNat_inj.mp (by omega)

instance : KeyOrder Char where
  lt a b := decide (a.toNat < b.toNat)
  irrefl a := by simp
  trans a b c h k := by simp at *; omega
  connected a b h k := by simp at *; exact Char.toNat_inj.mp (by omega)

instance {α : Type} [KeyOrder α] : KeyOrder (List α) where
  lt := listLt
  irrefl := listLt_irrefl
  trans := listLt_trans
  connected := listLt_connected

instance : KeyOrder String where
  lt a b := listLt a.toList b.toList
  irrefl a := listLt_irrefl a.toList
  trans a b c := listLt_trans a.toList b.toList c.toList
  connected a b h k := String.toList_inj.mp (listLt_connected a.toList b.toList h k)

/-- Pairs are ordered by their first part, then by their second. -/
instance {α β : Type} [KeyOrder α] [KeyOrder β] : KeyOrder (α × β) where
  lt p q := lt p.1 q.1 || (!lt q.1 p.1 && lt p.2 q.2)
  irrefl p := by simp [irrefl]
  trans p q r h k := by
    simp only [Bool.or_eq_true, Bool.and_eq_true, Bool.not_eq_true'] at *
    rcases h with pq | ⟨qp, snd⟩
    · rcases k with qr | ⟨rq, _⟩
      · exact Or.inl (trans p.1 q.1 r.1 pq qr)
      · left
        cases qr : lt q.1 r.1 with
        | true => exact trans p.1 q.1 r.1 pq qr
        | false => rw [← connected q.1 r.1 qr rq]; exact pq
    · cases pq : lt p.1 q.1 with
      | true =>
        rcases k with qr | ⟨rq, _⟩
        · exact Or.inl (trans p.1 q.1 r.1 pq qr)
        · left
          cases qr : lt q.1 r.1 with
          | true => exact trans p.1 q.1 r.1 pq qr
          | false => rw [← connected q.1 r.1 qr rq]; exact pq
      | false =>
        have same : p.1 = q.1 := connected p.1 q.1 pq qp
        rcases k with qr | ⟨rq, more⟩
        · left; rw [same]; exact qr
        · right; rw [same]; exact ⟨rq, trans p.2 q.2 r.2 snd more⟩
  connected p q h k := by
    simp only [Bool.or_eq_false_iff, Bool.and_eq_false_iff, Bool.not_eq_false'] at *
    obtain ⟨pq, sndFirst⟩ := h
    obtain ⟨qp, sndSecond⟩ := k
    have same : p.1 = q.1 := connected p.1 q.1 pq qp
    simp only [pq, qp, Bool.false_eq_true, false_or] at sndFirst sndSecond
    exact Prod.ext same (connected p.2 q.2 sndFirst sndSecond)

end KeyOrder
end Cellstore
