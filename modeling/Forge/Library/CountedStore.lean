import Mathlib.Order.Basic

/-! A bounded store and a counter of its size that parties change in separate steps: they take
room, store, and count what they stored; they remove, and count what they removed. -/

namespace Forge.Library.CountedStore

/-- What is stored and what the counter says; the room that is taken; what was stored and what was
removed without having been counted yet. -/
structure Account where
  stored : Nat
  counter : Nat
  taken : Nat
  arriving : Nat
  leaving : Nat
deriving DecidableEq, Repr

inductive Move where
  | stay
  | take
  | release
  | store
  | count
  | remove
  | discount
deriving DecidableEq, Repr

namespace Account

variable {account : Account} {move : Move} {capacity : Nat}

def next (account : Account) : Move → Account
  | .stay => account
  | .take => { account with taken := account.taken + 1 }
  | .release => { account with taken := account.taken - 1 }
  | .store =>
      { account with
        stored := account.stored + 1, taken := account.taken - 1, arriving := account.arriving + 1 }
  | .count =>
      { account with counter := account.counter + 1, arriving := account.arriving - 1 }
  | .remove =>
      { account with stored := account.stored - 1, leaving := account.leaving + 1 }
  | .discount =>
      { account with counter := account.counter - 1, leaving := account.leaving - 1 }

/-- What a move finds: the room it gives up, the item it counts or removes, and a counter that it
can lower. -/
def Due (account : Account) : Move → Prop
  | .stay | .take => True
  | .release | .store => 0 < account.taken
  | .count => 0 < account.arriving
  | .remove => 0 < account.stored
  | .discount => 0 < account.leaving ∧ 0 < account.counter

def Room (account : Account) (capacity : Nat) : Prop :=
  account.counter + account.arriving + account.taken < capacity

def Balanced (account : Account) : Prop :=
  account.stored + account.leaving = account.counter + account.arriving

def Within (account : Account) (capacity : Nat) : Prop :=
  account.stored + account.taken ≤ capacity

theorem Balanced.next (balanced : account.Balanced) (due : account.Due move) :
    (account.next move).Balanced := by
  unfold Balanced at balanced ⊢
  cases move <;> simp only [Due, Account.next] at due ⊢ <;> omega

theorem Within.next (within : account.Within capacity) (balanced : account.Balanced)
    (due : account.Due move) (room : move = .take → account.Room capacity) :
    (account.next move).Within capacity := by
  unfold Within at within ⊢
  unfold Balanced at balanced
  cases move with
  | take =>
      have hroom := room rfl
      simp only [Room, Account.next] at hroom ⊢
      omega
  | _ => simp only [Due, Account.next] at due ⊢; omega

theorem Balanced.at_rest (balanced : account.Balanced) (harriving : account.arriving = 0)
    (hleaving : account.leaving = 0) : account.counter = account.stored := by
  unfold Balanced at balanced
  omega

theorem Within.stored_le (within : account.Within capacity) : account.stored ≤ capacity :=
  Nat.le_trans (Nat.le_add_right account.stored account.taken) within

end Account

theorem countP_cons_toNat {α : Type} {p : α → Bool} {item : α} {rest : List α} :
    (item :: rest).countP p = rest.countP p + (p item).toNat := by
  rw [List.countP_cons]
  cases p item <;> rfl

theorem countP_set {α : Type} {p : α → Bool} {items : List α} {i : Nat} {old : α}
    (hold : items[i]? = some old) (new : α) :
    (items.set i new).countP p + (p old).toNat = items.countP p + (p new).toNat := by
  induction items generalizing i with
  | nil => simp at hold
  | cons item rest ih =>
      cases i with
      | zero =>
          rw [List.getElem?_cons_zero, Option.some.injEq] at hold
          subst hold
          rw [List.set_cons_zero, countP_cons_toNat, countP_cons_toNat]
          omega
      | succ i =>
          rw [List.getElem?_cons_succ] at hold
          rw [List.set_cons_succ, countP_cons_toNat, countP_cons_toNat]
          have hrest := ih hold
          omega

theorem toNat_le_countP {α : Type} {p : α → Bool} {items : List α} {i : Nat} {old : α}
    (hold : items[i]? = some old) : (p old).toNat ≤ items.countP p := by
  have hmem := List.mem_of_getElem? hold
  cases hp : p old with
  | false => exact Nat.zero_le _
  | true => exact List.countP_pos_iff.mpr ⟨old, hmem, hp⟩

end Forge.Library.CountedStore
