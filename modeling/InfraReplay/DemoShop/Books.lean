import InfraReplay.DemoShop.Stock
import Mathlib.Algebra.Order.BigOperators.Group.List

/-!
# The books of the demo shop

What the shop stores is a list of sales: every sale is one order with its items and one payment,
and it is what one request was answered with (`sales_of_run`), whatever steps the requests take and
whichever statements raise. An answer that rejects a request leaves nothing behind.

With the stock this gives the audit of the shop: while stock is reserved by one relative `UPDATE`,
confirmed orders and stock left never add up to more than there was (`audit_of_atomic_run`).
-/

namespace InfraReplay.DemoShop

open Python

/-! ### Sales -/

/-- What one checkout sells. -/
structure Sale where
  user : User
  lines : List Line
  token : String
  /-- The ids made up for the order, and those made up for the payment. -/
  orderHexes : Hexes
  paymentHexes : Hexes

namespace Sale

variable (tax : ℤ → ℤ) (sale : Sale)

/-- The gateway declines the sale. -/
def Declined : Prop := DemoShop.Declined (totalOf tax sale.lines) sale.token

instance : Decidable (sale.Declined tax) := by
  unfold Declined
  infer_instance

/-- The order of a sale is confirmed unless the payment is declined. -/
def order : Order :=
  { orderOf tax sale.orderHexes sale.user sale.lines with
    status := if sale.Declined tax then .pending else .confirmed }

def items : List OrderItem := itemsOf (sale.order tax).id sale.lines

def payment : Payment :=
  authorize sale.paymentHexes (sale.order tax).id (totalOf tax sale.lines) sale.token

/-- The request of a sale and its answer: who asked for what, and what came back. -/
def answer : (String × List (String × ℤ)) × ℕ × Value :=
  ((sale.user.handle, sale.lines.map fun line => (line.sku, line.qty)),
    if sale.Declined tax then (402, declinedBody (sale.payment tax))
    else (201, confirmedBody tax sale.lines (sale.payment tax)))

end Sale

/-- A request that sold something, and its answer. -/
def Checkout.answer (c : Checkout) : Option ((String × List (String × ℤ)) × ℕ × Value) :=
  match c.stage with
  | .answered status payload =>
    if status = 201 ∨ status = 402 then
      some ((c.handle, c.items.map fun item => (item.sku, item.qty)), status, payload)
    else none
  | _ => none

/-- The inventory lists the article under this name, at this price. -/
def Listed (shop : Shop) (sku name : String) (unitCents : ℤ) : Prop :=
  ∃ row, shop.inventory.get? sku = some row ∧ name = row.committed.name ∧
    unitCents = row.committed.unitCents

/-- What no checkout changes: the users, and what the articles are and cost. -/
structure Catalogue (shop₀ shop : Shop) : Prop where
  users : shop.users = shop₀.users
  skus : shop.inventory.keys = shop₀.inventory.keys
  rows : ∀ sku row, shop.inventory.get? sku = some row →
    row.All fun r => Listed shop₀ sku r.name r.unitCents

/-- What is stored since the start is the rows of the sales, each to a user of the shop and at the
prices of the shop. -/
structure Stores (tax : ℤ → ℤ) (shop₀ shop : Shop) (sales : List Sale) : Prop where
  orders : shop.orders = shop₀.orders ++ sales.map (Sale.order tax)
  orderItems : shop.orderItems = shop₀.orderItems ++ sales.flatMap (Sale.items tax)
  payments : shop.payments = shop₀.payments ++ sales.map (Sale.payment tax)
  customers : ∀ sale ∈ sales, sale.user ∈ shop₀.users
  prices : ∀ sale ∈ sales, ∀ line ∈ sale.lines, Listed shop₀ line.sku line.name line.unitCents

namespace Stores

variable {tax : ℤ → ℤ} {shop₀ shop shop' : Shop} {sales : List Sale}

theorem congr (h : Stores tax shop₀ shop sales) (horders : shop'.orders = shop.orders)
    (hitems : shop'.orderItems = shop.orderItems) (hpayments : shop'.payments = shop.payments) :
    Stores tax shop₀ shop' sales where
  orders := horders.trans h.orders
  orderItems := hitems.trans h.orderItems
  payments := hpayments.trans h.payments
  customers := h.customers
  prices := h.prices

/-- A commit stores one more sale. -/
theorem commit (h : Stores tax shop₀ shop sales) (sale : Sale) (huser : sale.user ∈ shop₀.users)
    (hlines : ∀ line ∈ sale.lines, Listed shop₀ line.sku line.name line.unitCents) (txn : ℕ) :
    Stores tax shop₀ (shop.commit txn (sale.order tax) (sale.items tax) (sale.payment tax))
      (sales ++ [sale]) where
  orders := by
    rw [Shop.commit, h.orders, List.map_append, List.append_assoc]
    rfl
  orderItems := by
    rw [Shop.commit, h.orderItems, List.flatMap_append, List.append_assoc, List.flatMap_singleton]
  payments := by
    rw [Shop.commit, h.payments, List.map_append, List.append_assoc]
    rfl
  customers := List.forall_mem_concat h.customers huser
  prices := List.forall_mem_concat h.prices hlines

end Stores

/-! ### One step -/

namespace Catalogue

variable {reserve : Reserve} {tax : ℤ → ℤ} {hexes : Hexes} {shop₀ shop shop' : Shop}
  {c c' : Checkout}

theorem set {sku : String} {row row' : LockedRow ℕ Inventory} (h : Catalogue shop₀ shop)
    (hold : shop.inventory.get? sku = some row')
    (hrow : row.All fun r => Listed shop₀ sku r.name r.unitCents) :
    Catalogue shop₀ { shop with inventory := shop.inventory.set sku row } where
  users := h.users
  skus := (Dict.keys_set_of_mem (Dict.mem_keys_of_get?_eq_some hold) row).trans h.skus
  rows := by
    intro sku' row' hrow'
    rcases Shop.get?_set_cases hrow' with ⟨rfl, rfl⟩ | ⟨-, hkept⟩
    · exact hrow
    · exact h.rows sku' row' hkept

theorem release (h : Catalogue shop₀ shop) (txn : ℕ) :
    Catalogue shop₀ (shop.release txn) where
  users := h.users
  skus := (Shop.keys_map_rows shop _).trans h.skus
  rows := by
    intro sku row hrow
    obtain ⟨row', hrow', rfl⟩ := Shop.exists_of_get?_map hrow
    exact (h.rows sku row' hrow').rollback txn

theorem commit (h : Catalogue shop₀ shop) (txn : ℕ) (order : Order)
    (items : List OrderItem) (payment : Payment) :
    Catalogue shop₀ (shop.commit txn order items payment) where
  users := h.users
  skus := (Shop.keys_map_rows shop _).trans h.skus
  rows := by
    intro sku row hrow
    obtain ⟨row', hrow', rfl⟩ := Shop.exists_of_get?_map hrow
    exact (h.rows sku row' hrow').commit txn

/-- An `UPDATE` of `_reserve` changes nothing but how many there are. -/
theorem listed_of_reservation {line : Line} {row v : Inventory} {sku : String}
    (h : reservation reserve line row = some v) (hrow : Listed shop₀ sku row.name row.unitCents) :
    Listed shop₀ sku v.name v.unitCents := by
  cases reserve with
  | atomic =>
    simp only [reservation] at h
    split_ifs at h
    rw [← Option.some.inj h]
    exact hrow
  | readThenWrite =>
    rw [← Option.some.inj h]
    exact hrow

theorem takes (h : Catalogue shop₀ shop)
    (ht : Checkout.Takes reserve tax hexes shop c c' shop') : Catalogue shop₀ shop' := by
  cases ht with
  | refused | known | missed | priced | unknown | gone => exact h
  | inserted => exact ⟨h.users, h.skus, h.rows⟩
  | unmatched hstage hrow => exact h.set hrow (h.rows _ _ hrow)
  | written hstage hrow hsome =>
    have hall := h.rows _ _ hrow
    exact h.set hrow (hall.write (listed_of_reservation hsome (hall.seenBy _)) _)
  | outOfStock => exact h.release _
  | declined | confirmed => exact h.commit _ _ _ _

end Catalogue

namespace Checkout

variable {reserve : Reserve} {tax : ℤ → ℤ} {hexes : Hexes} {shop₀ shop shop' : Shop}
  {c c' u : Checkout} {sales : List Sale}

/-- A checkout serves the user of its request, and prices what the request asks for at the prices
of the shop. -/
def Serves (tax : ℤ → ℤ) (shop₀ : Shop) (c : Checkout) : Prop :=
  match c.stage with
  | .pricing user todo held lines missing =>
    user ∈ shop₀.users ∧ user.handle = c.handle ∧
      (∀ line ∈ lines, Listed shop₀ line.sku line.name line.unitCents) ∧
      (∀ sku row, held = some (sku, row) → Listed shop₀ sku row.name row.unitCents) ∧
      (missing = [] → (lines.map fun line => (line.sku, line.qty)) ++
        (todo.map fun item => (item.sku, item.qty)) = c.items.map fun item => (item.sku, item.qty))
  | .reserving order lines _ _ =>
    (∃ user hexes, user ∈ shop₀.users ∧ user.handle = c.handle ∧
      order = orderOf tax hexes user lines) ∧
      (∀ line ∈ lines, Listed shop₀ line.sku line.name line.unitCents) ∧
      (lines.map fun line => (line.sku, line.qty)) = c.items.map fun item => (item.sku, item.qty)
  | _ => True

/-- What a step makes of the order of a checkout. -/
theorem Serves.takes (h : c.Serves tax shop₀) (hcatalogue : Catalogue shop₀ shop)
    (ht : Takes reserve tax hexes shop c c' shop') : c'.Serves tax shop₀ := by
  cases ht with
  | refused | unknown | outOfStock | declined | confirmed => exact trivial
  | known hstage huser hhandle =>
    exact ⟨hcatalogue.users ▸ huser, hhandle, by simp, by simp, fun _ => rfl⟩
  | missed hstage =>
    rw [Serves, hstage] at h
    obtain ⟨huser, hhandle, hlines, -, -⟩ := h
    exact ⟨huser, hhandle, hlines, nofun, fun hnil => absurd hnil (by simp)⟩
  | @priced user item todo held lines missing row seen hstage hrow hseen =>
    rw [Serves, hstage] at h
    obtain ⟨huser, hhandle, hlines, hheld, hasked⟩ := h
    -- what the session hands out is a row of the shop, new or held since it was read
    have hlisted : Listed shop₀ item.sku seen.name seen.unitCents := by
      rw [hseen]
      exact handOut_ind (P := fun row => Listed shop₀ item.sku row.name row.unitCents)
        (hheld item.sku) ((hcatalogue.rows _ _ hrow).seenBy _)
    refine ⟨huser, hhandle, List.forall_mem_concat hlines hlisted, fun sku row' hheld' => ?_,
      fun hnil => ?_⟩
    · obtain ⟨rfl, rfl⟩ := Prod.mk.inj (Option.some.inj hheld')
      exact hlisted
    · show _ = c.items.map _
      rw [← hasked hnil, List.map_append, List.append_assoc]
      rfl
  | inserted hstage horder =>
    rw [Serves, hstage] at h
    obtain ⟨huser, hhandle, hlines, -, hasked⟩ := h
    rw [List.map_nil, List.append_nil] at hasked
    exact ⟨⟨_, hexes, huser, hhandle, horder⟩, hlines, hasked rfl⟩
  | gone hstage | unmatched hstage | written hstage =>
    rw [Serves, hstage] at h
    exact h

/-- A step that stores nothing answers nothing that sells. -/
theorem stores_nil (h : Stores tax shop₀ shop' sales) (hanswer : c'.answer = none) :
    ∃ new, Stores tax shop₀ shop' (sales ++ new) ∧
      new.map (Sale.answer tax) = c'.answer.toList :=
  ⟨[], by rwa [List.append_nil], by rw [hanswer]; rfl⟩

/-- A checkout that commits makes one sale: of what it has priced, to the user of its request. -/
theorem exists_sale {order : Order} {lines : List Line} (hserves : c.Serves tax shop₀)
    (h : Stores tax shop₀ shop sales) (hstage : c.stage = .reserving order lines [] [])
    (hexes : Hexes) :
    ∃ sale : Sale,
      Stores tax shop₀
        (shop.commit c.txn
          (if Declined order.totalCents c.token then order else { order with status := .confirmed })
          (itemsOf order.id lines) (authorize hexes order.id order.totalCents c.token))
        (sales ++ [sale]) ∧
      sale.answer tax = ((c.handle, c.items.map fun item => (item.sku, item.qty)),
        if Declined order.totalCents c.token then
          (402, declinedBody (authorize hexes order.id order.totalCents c.token))
        else
          (201, confirmedBody tax lines (authorize hexes order.id order.totalCents c.token))) := by
  rw [Serves, hstage] at hserves
  obtain ⟨⟨user, orderHexes, huser, hhandle, rfl⟩, hlines, hasked⟩ := hserves
  let sale : Sale := ⟨user, lines, c.token, orderHexes, hexes⟩
  have hcommit := h.commit sale huser hlines c.txn
  have hrequest : (sale.user.handle, sale.lines.map fun line => (line.sku, line.qty)) =
      (c.handle, c.items.map fun item => (item.sku, item.qty)) := by rw [← hhandle, ← hasked]
  -- the order of a declined sale is stored as it was inserted
  have horder : sale.order tax =
      if Declined (orderOf tax orderHexes user lines).totalCents c.token then
        orderOf tax orderHexes user lines
      else { orderOf tax orderHexes user lines with status := .confirmed } := by
    by_cases hsale : sale.Declined tax
    · rw [Sale.order, if_pos hsale]
      exact (if_pos hsale).symm
    · rw [Sale.order, if_neg hsale]
      exact (if_neg hsale).symm
  have hid : (sale.order tax).id = (orderOf tax orderHexes user lines).id := by
    rw [horder]
    split_ifs <;> rfl
  rw [Sale.items, Sale.payment, hid, horder] at hcommit
  refine ⟨sale, hcommit, ?_⟩
  rw [Sale.answer, Sale.payment, hid, hrequest]
  by_cases hsale : sale.Declined tax
  · rw [if_pos hsale]
    exact congrArg (Prod.mk _) (if_pos hsale).symm
  · rw [if_neg hsale]
    exact congrArg (Prod.mk _) (if_neg hsale).symm

/-- What a step stores and answers. -/
theorem stores_of_takes (hserves : c.Serves tax shop₀) (h : Stores tax shop₀ shop sales)
    (ht : Takes reserve tax hexes shop c c' shop') :
    ∃ new, Stores tax shop₀ shop' (sales ++ new) ∧
      new.map (Sale.answer tax) = c'.answer.toList := by
  cases ht with
  | refused hstage hstatus =>
    subst hstatus
    exact stores_nil h rfl
  -- only the two commits store a sale
  | known | missed | priced | unknown | gone => exact stores_nil h rfl
  | inserted | unmatched | written | outOfStock => exact stores_nil (h.congr rfl rfl rfl) rfl
  | declined hstage hpayment hfree hdeclined =>
    subst hpayment
    obtain ⟨sale, hstores, hanswer⟩ := exists_sale hserves h hstage hexes
    rw [if_pos hdeclined] at hstores hanswer
    exact ⟨[sale], hstores, by rw [List.map_singleton, hanswer]; rfl⟩
  | confirmed hstage hpayment hfree hauthorized =>
    subst hpayment
    obtain ⟨sale, hstores, hanswer⟩ := exists_sale hserves h hstage hexes
    rw [if_neg hauthorized] at hstores hanswer
    exact ⟨[sale], hstores, by rw [List.map_singleton, hanswer]; rfl⟩

/-- Only a request that is not answered takes a step. -/
theorem answer_of_takes (ht : Takes reserve tax hexes shop c c' shop') : c.answer = none := by
  unfold answer
  cases ht with
  | refused h | known h | missed h | priced h | unknown h | inserted h | gone h | unmatched h
  | written h | outOfStock h | declined h | confirmed h => rw [h]

/-- A checkout that fails has answered nothing. -/
theorem answer_of_fail (h : c.fail shop = some (c', shop')) : c.answer = none := by
  unfold fail at h
  unfold answer
  split at h
  · cases h
  · cases h
  · rename_i hanswered hfailed
    split
    · rename_i status payload hstage
      exact absurd hstage (hanswered status payload)
    · rfl

/-! ### Runs -/

/-- The books of a shop with its requests: what is stored is what was answered. -/
structure Booked (tax : ℤ → ℤ) (shop₀ : Shop) (p : Pool Shop Checkout) : Prop where
  catalogue : Catalogue shop₀ p.state
  serves : ∀ c ∈ p.tasks, c.Serves tax shop₀
  sales : ∃ sales, Stores tax shop₀ p.state sales ∧
    (sales.map (Sale.answer tax)).Perm (p.tasks.flatMap fun c => c.answer.toList)

variable {requests : List Checkout} {moves : List Move} {p p' : Pool Shop Checkout} {move : Move}

/-- The books are in order when the shop opens. -/
theorem booked_init (h : Opened shop₀ requests) : Booked tax shop₀ ⟨shop₀, requests⟩ where
  catalogue := by
    refine ⟨rfl, rfl, fun sku row hrow => ⟨⟨row, hrow, rfl, rfl⟩, fun q hq => ?_⟩⟩
    rw [h.unlocked sku row hrow] at hq
    cases hq
  serves c hc := by
    rw [Serves, h.arrived c hc]
    trivial
  sales := by
    refine ⟨[], ⟨by simp, by simp, by simp, by simp, by simp⟩, ?_⟩
    have hnone : (requests.flatMap fun c => c.answer.toList) = [] := by
      refine List.flatMap_eq_nil_iff.mpr fun c hc => ?_
      rw [answer, h.arrived c hc]
      rfl
    rw [List.map_nil, hnone]

/-- A request that moves adds its answer to those that are there. -/
theorem answers_set {tasks : List Checkout} {place : ℕ} (hc : tasks[place]? = some c)
    (hanswer : c.answer = none) (c' : Checkout) :
    ((tasks.set place c').flatMap fun c => c.answer.toList).Perm
      (c'.answer.toList ++ tasks.flatMap fun c => c.answer.toList) := by
  have hperm := List.flatMap_set_perm (f := fun c : Checkout => c.answer.toList) hc c'
  rwa [hanswer, Option.toList_none, List.nil_append] at hperm

/-- A step keeps the books in order. -/
theorem Booked.step (h : Booked tax shop₀ p) (hstep : step reserve tax p move = some p') :
    Booked tax shop₀ p' := by
  obtain ⟨sales, hstores, hanswers⟩ := h.sales
  cases move with
  | goOn place hexes =>
    obtain ⟨c, c', shop', hc, hnext, rfl⟩ := Pool.step_eq_some_iff.mp hstep
    have ht := takes_of_next hnext
    have hserves := h.serves c (List.mem_of_getElem? hc)
    obtain ⟨new, hnew, hanswer⟩ := stores_of_takes hserves hstores ht
    refine ⟨h.catalogue.takes ht, List.forall_mem_set h.serves (hserves.takes h.catalogue ht),
      sales ++ new, hnew, ?_⟩
    refine List.Perm.trans ?_ (answers_set hc (answer_of_takes ht) c').symm
    rw [List.map_append, hanswer]
    exact List.perm_append_comm.trans (hanswers.append_left _)
  | raises place =>
    obtain ⟨c, c', shop', hc, hfail, rfl⟩ := Pool.step_eq_some_iff.mp hstep
    have hanswer := answer_of_fail hfail
    obtain ⟨rfl, rfl⟩ := eq_of_fail hfail
    exact ⟨h.catalogue.release c.txn, List.forall_mem_set h.serves trivial, sales,
      hstores.congr rfl rfl rfl, hanswers.trans (answers_set hc hanswer (c.toStage .failed)).symm⟩

/-! ### Keys -/

/-- No two orders have one key, committed or not, and no two payments have. -/
structure Keyed (shop : Shop) : Prop where
  orders : (shop.orders.map Order.id ++ shop.inserting.map Prod.snd).Nodup
  payments : (shop.payments.map Payment.id).Nodup

/-- The order of the checkout is inserted. -/
def Inserted (shop : Shop) (c : Checkout) : Prop :=
  match c.stage with
  | .reserving order _ _ _ => (c.txn, order.id) ∈ shop.inserting
  | _ => True

/-- Only the rows being inserted matter. -/
theorem Inserted.congr (h : u.Inserted shop) (heq : shop'.inserting = shop.inserting) :
    u.Inserted shop' := by
  unfold Inserted at h ⊢
  rwa [heq]

/-- Another transaction ends. -/
theorem Inserted.filter {txn : ℕ} (h : u.Inserted shop) (hne : u.txn ≠ txn)
    (heq : shop'.inserting = shop.inserting.filter fun q => q.1 ≠ txn) : u.Inserted shop' := by
  unfold Inserted at h ⊢
  rw [heq]
  split at h
  · exact List.mem_filter.mpr ⟨h, by simpa using hne⟩
  · trivial

/-- A rollback gives no key twice. -/
theorem Keyed.release (h : Keyed shop) (txn : ℕ) : Keyed (shop.release txn) where
  orders := h.orders.sublist
    ((List.Sublist.refl _).append (List.filter_sublist.map _))
  payments := h.payments

/-- An inserted order and a new payment are committed. -/
theorem Keyed.commit (h : Keyed shop) {txn : ℕ} {order : Order} {orderId : String}
    {payment : Payment} (horder : (txn, orderId) ∈ shop.inserting) (hid : order.id = orderId)
    (hpayment : payment.id ∉ shop.payments.map Payment.id) (items : List OrderItem) :
    Keyed (shop.commit txn order items payment) where
  orders := by
    subst hid
    obtain ⟨horders, hinserting, hdisjoint⟩ := List.nodup_append.mp h.orders
    have hmem : order.id ∈ shop.inserting.map Prod.snd := List.mem_map_of_mem horder
    show ((shop.orders ++ [order]).map Order.id ++ _).Nodup
    rw [List.map_append, List.append_assoc, List.nodup_append]
    refine ⟨horders, ?_, fun id hid id' hid' => ?_⟩
    · rw [List.map_singleton, List.singleton_append, List.nodup_cons]
      refine ⟨fun hkept => ?_, hinserting.sublist (List.filter_sublist.map _)⟩
      -- an entry of this key that is kept would be a second one
      obtain ⟨⟨txn', id⟩, hentry, hid⟩ := List.mem_map.mp hkept
      obtain ⟨hentry, hne⟩ := List.mem_filter.mp hentry
      have heq := List.inj_on_of_nodup_map hinserting hentry horder hid
      obtain rfl : txn' = txn := congrArg Prod.fst heq
      simp at hne
    · rw [List.map_singleton, List.singleton_append, List.mem_cons] at hid'
      rcases hid' with rfl | hid'
      · exact hdisjoint id hid _ hmem
      · exact hdisjoint id hid id' ((List.filter_sublist.map _).subset hid')
  payments := by
    show ((shop.payments ++ [payment]).map Payment.id).Nodup
    rw [List.map_append, List.map_singleton, List.nodup_append_singleton]
    exact ⟨h.payments, hpayment⟩

/-- A step of a checkout gives no key twice. -/
theorem Keyed.takes (h : Keyed shop) (hinserted : c.Inserted shop)
    (ht : Takes reserve tax hexes shop c c' shop') : Keyed shop' ∧ c'.Inserted shop' := by
  cases ht with
  | refused | known | missed | priced | unknown => exact ⟨h, trivial⟩
  | inserted hstage horder hfree =>
    -- the key of the order is free, among the committed and the inserted ones
    refine ⟨⟨?_, h.payments⟩, List.mem_append_right _ (List.mem_singleton_self _)⟩
    show (_ ++ (shop.inserting ++ [_]).map Prod.snd).Nodup
    rw [List.map_append, List.map_singleton, ← List.append_assoc, List.nodup_append_singleton]
    exact ⟨h.orders, fun hmem => (List.mem_append.mp hmem).elim hfree.1 hfree.2⟩
  | gone hstage | unmatched hstage | written hstage =>
    rw [Inserted, hstage] at hinserted
    exact ⟨⟨h.orders, h.payments⟩, hinserted⟩
  | outOfStock => exact ⟨h.release _, trivial⟩
  | declined hstage hpayment hfree =>
    rw [Inserted, hstage] at hinserted
    exact ⟨h.commit hinserted rfl hfree _, trivial⟩
  | confirmed hstage hpayment hfree =>
    rw [Inserted, hstage] at hinserted
    refine ⟨h.commit hinserted ?_ hfree _, trivial⟩
    rfl

/-- A step of one checkout leaves the rows that another is inserting. -/
theorem Inserted.takes_other (h : u.Inserted shop) (hne : u.txn ≠ c.txn)
    (ht : Takes reserve tax hexes shop c c' shop') : u.Inserted shop' := by
  cases ht with
  | refused | known | missed | priced | unknown | gone | unmatched | written => exact h.congr rfl
  | inserted =>
    unfold Inserted at h ⊢
    split at h
    · exact List.mem_append_left _ h
    · trivial
  | outOfStock | declined | confirmed => exact h.filter hne rfl

/-- In every run the keys stay distinct. -/
theorem keyed_of_run (hopened : Opened shop₀ requests) (hkeyed : Keyed shop₀)
    (hrun : Machine.run (step reserve tax) ⟨shop₀, requests⟩ moves = some p) : Keyed p.state := by
  have hinit : Pool.Inv Keyed (fun shop c => c.Inserted shop) (fun c u => c.txn ≠ u.txn)
      ⟨shop₀, requests⟩ :=
    ⟨hkeyed, fun c hc => by rw [Inserted, hopened.arrived c hc]; trivial, hopened.txns⟩
  refine (Machine.invariant_run (fun q move q' hinv hstep => ?_) hinit hrun).shared
  refine inv_step hinv hstep (fun c c' shop' hexes hc ht => ?_) fun c hc => ?_
  · obtain ⟨hkeyed, hinserted⟩ := hinv.shared.takes (hinv.own c (List.mem_of_getElem? hc)) ht
    exact ⟨hkeyed, hinserted, fun u _ hu hne => hu.takes_other hne ht⟩
  · exact ⟨hinv.shared.release c.txn, trivial, fun u _ hu hne => hu.filter hne rfl⟩

/-- In every run the books stay in order. -/
theorem booked_of_run (hopened : Opened shop₀ requests)
    (hrun : Machine.run (step reserve tax) ⟨shop₀, requests⟩ moves = some p) :
    Booked tax shop₀ p :=
  Machine.invariant_run (fun _ _ _ h hstep => h.step hstep) (booked_init hopened) hrun

/-- **The books balance.** After any steps of any number of checkouts, in either mode and with any
statements raising, what the shop has stored since the start is the rows of a list of sales, no
key twice, and these sales are what the requests were answered with: a `201` for each confirmed
order, a `402` for each declined one, under the name of the customer. -/
theorem sales_of_run (hopened : Opened shop₀ requests) (hkeyed : Keyed shop₀)
    (hrun : Machine.run (step reserve tax) ⟨shop₀, requests⟩ moves = some p) :
    (p.state.orders.map Order.id).Nodup ∧ (p.state.payments.map Payment.id).Nodup ∧
      ∃ sales, Stores tax shop₀ p.state sales ∧
        (sales.map (Sale.answer tax)).Perm (p.tasks.flatMap fun c => c.answer.toList) := by
  have hbooked := booked_of_run hopened hrun
  have hkeys := keyed_of_run hopened hkeyed hrun
  exact ⟨(List.nodup_append.mp hkeys.orders).1, hkeys.payments, hbooked.sales⟩

theorem sales_of_run_lastUnit :
    ∃ p, Machine.run (step .readThenWrite fun _ => 0) ⟨smallShop 1, singleUnits 2⟩ lastUnit =
        some p ∧ p.state.orders.length = 2 ∧
      (p.state.orders.map Order.id).Nodup ∧ (p.state.payments.map Payment.id).Nodup ∧
        ∃ sales, Stores (fun _ => 0) (smallShop 1) p.state sales ∧
          (sales.map (Sale.answer fun _ => 0)).Perm
            (p.tasks.flatMap fun c => c.answer.toList) := by
  have hrun : (Machine.run (step .readThenWrite fun _ => 0) ⟨smallShop 1, singleUnits 2⟩
      lastUnit).map (fun q => q.state.orders.length) = some 2 := by decide
  obtain ⟨p, hp, hlength⟩ := Option.map_eq_some_iff.mp hrun
  exact ⟨p, hp, hlength, sales_of_run (opened_singleUnits 1 2) ⟨by decide, by decide⟩ hp⟩

end Checkout

/-! ### The audit -/

/-- How much is left of all articles. -/
def stockLeft (shop : Shop) : ℤ := (shop.inventory.map fun p => p.2.committed.available).sum

/-- How many orders are confirmed. -/
def confirmedOrders (shop : Shop) : ℕ := shop.orders.countP fun order => order.status = .confirmed

/-- Summed over all articles, each item counts once. -/
theorem sum_sold {skus : List String} (hnd : skus.Nodup) {items : List OrderItem}
    (h : ∀ item ∈ items, item.sku ∈ skus) :
    (skus.map fun sku => sold sku items).sum = (items.map OrderItem.qty).sum := by
  induction items with
  | nil => simp [sold]
  | cons item items ih =>
    have hone : (skus.map fun sku => if item.sku = sku then item.qty else 0).sum = item.qty := by
      simp only [eq_comm (a := item.sku)]
      rw [List.sum_map_ite_eq, List.count_eq_one_of_mem hnd (h item List.mem_cons_self)]
      simp
    have hcons : ∀ sku, sold sku (item :: items) =
        (if item.sku = sku then item.qty else 0) + sold sku items := fun sku => rfl
    simp only [hcons]
    rw [List.sum_map_add, hone, ih fun item' hitem' => h item' (List.mem_cons_of_mem _ hitem'),
      List.map_cons, List.sum_cons]

/-- The stock that is left, article by article. -/
theorem stockLeft_eq {shop : Shop} (hnd : shop.inventory.keys.Nodup) :
    stockLeft shop = (shop.inventory.keys.map fun sku =>
      ((shop.inventory.get? sku).map fun row => row.committed.available).getD 0).sum := by
  rw [stockLeft, Dict.keys, List.map_map]
  refine congrArg List.sum (List.map_congr_left fun p hp => ?_)
  have hget : shop.inventory.get? p.1 = some p.2 := (Dict.get?_eq_some_iff hnd).mpr hp
  rw [Function.comp_apply, hget]
  rfl

namespace Checkout

variable {tax : ℤ → ℤ} {shop₀ : Shop} {requests : List Checkout} {moves : List Move}
  {p : Pool Shop Checkout} {sales : List Sale}

/-- Every sale takes at least one unit when every request asks for one. -/
theorem length_le_sum_qty
    (hasks : ∀ sale ∈ sales, sale.lines ≠ [] ∧ ∀ line ∈ sale.lines, 1 ≤ line.qty) :
    (sales.length : ℤ) ≤ ((sales.flatMap (Sale.items tax)).map OrderItem.qty).sum := by
  induction sales with
  | nil => simp
  | cons sale sales ih =>
    obtain ⟨hne, hqty⟩ := hasks sale List.mem_cons_self
    have hrest := ih fun sale' hsale' => hasks sale' (List.mem_cons_of_mem _ hsale')
    -- a sale has a first line of at least one unit, and no line takes units away
    have hsale : 1 ≤ ((sale.items tax).map OrderItem.qty).sum := by
      obtain ⟨line, lines, hlines⟩ := List.exists_cons_of_ne_nil hne
      have hnonneg : 0 ≤ (lines.map Line.qty).sum := by
        refine List.sum_nonneg fun q hq => ?_
        obtain ⟨line', hline', rfl⟩ := List.mem_map.mp hq
        exact zero_le_one.trans (hqty line' (by rw [hlines]; exact List.mem_cons_of_mem _ hline'))
      have hfirst := hqty line (by rw [hlines]; exact List.mem_cons_self)
      have hsum : ((sale.items tax).map OrderItem.qty).sum =
          line.qty + (lines.map Line.qty).sum := by
        rw [Sale.items, itemsOf, List.map_map, hlines, List.map_cons, List.sum_cons]
        rfl
      omega
    rw [List.flatMap_cons, List.map_append, List.sum_append, List.length_cons]
    push_cast
    omega

/-- A request stays what it is. -/
theorem items_of_takes {reserve : Reserve} {hexes : Hexes} {shop shop' : Shop} {c c' : Checkout}
    (ht : Takes reserve tax hexes shop c c' shop') : c'.items = c.items := by
  cases ht <;> rfl

/-- Every checkout of a run still orders what one of the requests asked for. -/
theorem mem_requests_of_run {reserve : Reserve}
    (hrun : Machine.run (step reserve tax) ⟨shop₀, requests⟩ moves = some p) {c : Checkout}
    (hc : c ∈ p.tasks) : ∃ c₀ ∈ requests, c₀.items = c.items := by
  let Kept (q : Pool Shop Checkout) : Prop := q.tasks.map items = requests.map items
  have hkept : Kept p := by
    refine Machine.invariant_run (fun q move q' hinv hstep => ?_) rfl hrun
    cases move with
    | goOn place hexes =>
      obtain ⟨c, c', shop', hc, hnext, rfl⟩ := Pool.step_eq_some_iff.mp hstep
      exact (List.map_set_of_eq hc (items_of_takes (takes_of_next hnext))).trans hinv
    | raises place =>
      obtain ⟨c, c', shop', hc, hfail, rfl⟩ := Pool.step_eq_some_iff.mp hstep
      obtain ⟨rfl, rfl⟩ := eq_of_fail hfail
      exact (List.map_set_of_eq (b := c.toStage .failed) hc rfl).trans hinv
  have hmem : c.items ∈ requests.map items := hkept ▸ List.mem_map_of_mem hc
  exact List.mem_map.mp hmem

/-- A sale has what its request asks for. -/
theorem asks_of_answer {sale : Sale} {c : Checkout} (h : c.answer = some (sale.answer tax))
    (hne : c.items ≠ []) (hqty : ∀ item ∈ c.items, 1 ≤ item.qty) :
    sale.lines ≠ [] ∧ ∀ line ∈ sale.lines, 1 ≤ line.qty := by
  -- the answer lists what was asked for
  have hasked : (sale.lines.map fun line => (line.sku, line.qty)) =
      c.items.map fun item => (item.sku, item.qty) := by
    unfold answer at h
    split at h
    · split_ifs at h
      exact (congrArg (fun a => a.1.2) (Option.some.inj h)).symm
    · cases h
  constructor
  · intro hnil
    rw [hnil, List.map_nil, eq_comm, List.map_eq_nil_iff] at hasked
    exact hne hasked
  · intro line hline
    have hmem : (line.sku, line.qty) ∈ c.items.map fun item => (item.sku, item.qty) := by
      rw [← hasked]
      exact List.mem_map_of_mem hline
    obtain ⟨item, hitem, heq⟩ := List.mem_map.mp hmem
    rw [← (Prod.mk.inj heq).2]
    exact hqty item hitem

/-- The units of the sales are gone from the stock. -/
theorem stockLeft_add_units {shop : Shop} (hcatalogue : Catalogue shop₀ shop)
    (hstores : Stores tax shop₀ shop sales) (hbalanced : Balanced shop₀ shop)
    (hskus : shop₀.inventory.keys.Nodup) :
    stockLeft shop + ((sales.flatMap (Sale.items tax)).map OrderItem.qty).sum =
      stockLeft shop₀ := by
  have hlisted : ∀ item ∈ sales.flatMap (Sale.items tax), item.sku ∈ shop₀.inventory.keys := by
    intro item hitem
    obtain ⟨sale, hsale, hitem⟩ := List.mem_flatMap.mp hitem
    obtain ⟨line, hline, rfl⟩ := List.mem_map.mp hitem
    obtain ⟨row, hrow, -⟩ := hstores.prices sale hsale line hline
    exact Dict.mem_keys_of_get?_eq_some hrow
  rw [stockLeft_eq hskus, stockLeft_eq (by rwa [hcatalogue.skus]), hcatalogue.skus,
    ← sum_sold hskus hlisted, ← List.sum_map_add]
  refine congrArg List.sum (List.map_congr_left fun sku hsku => ?_)
  -- article by article, what is gone is what the sales hold
  obtain ⟨row₀, hrow₀⟩ := Dict.exists_get?_of_mem_keys hsku
  obtain ⟨row, hrow, hsum⟩ := hbalanced sku row₀ hrow₀
  rw [hstores.orderItems, sold_append] at hsum
  rw [hrow, hrow₀, Option.map_some, Option.map_some, Option.getD_some, Option.getD_some]
  omega

/-- **The audit.** When stock is reserved by one relative `UPDATE` and every request asks for
something, then after any steps of any number of checkouts, with any statements raising, confirmed
orders and stock left add up to no more than at the start. -/
theorem audit_of_atomic_run (hopened : Opened shop₀ requests) (hskus : shop₀.inventory.keys.Nodup)
    (hasks : ∀ c ∈ requests, c.items ≠ [] ∧ ∀ item ∈ c.items, 1 ≤ item.qty)
    (hrun : Machine.run (step .atomic tax) ⟨shop₀, requests⟩ moves = some p) :
    confirmedOrders p.state + stockLeft p.state ≤ confirmedOrders shop₀ + stockLeft shop₀ := by
  have hbooked := booked_of_run hopened hrun
  obtain ⟨sales, hstores, hanswers⟩ := hbooked.sales
  -- every sale is for a request, so it takes something
  have hsales : ∀ sale ∈ sales, sale.lines ≠ [] ∧ ∀ line ∈ sale.lines, 1 ≤ line.qty := by
    intro sale hsale
    obtain ⟨c, hc, hanswer⟩ := List.mem_flatMap.mp
      (hanswers.subset (List.mem_map_of_mem (f := Sale.answer tax) hsale))
    obtain ⟨c₀, hc₀, hitems⟩ := mem_requests_of_run hrun hc
    obtain ⟨hne, hqty⟩ := hasks c₀ hc₀
    rw [hitems] at hne hqty
    exact asks_of_answer (Option.mem_toList.mp hanswer) hne hqty
  have hconfirmed : confirmedOrders p.state ≤ confirmedOrders shop₀ + sales.length := by
    rw [confirmedOrders, hstores.orders, List.countP_append]
    refine Nat.add_le_add_left ((List.countP_le_length).trans ?_) _
    rw [List.length_map]
  have hunits : (sales.length : ℤ) ≤ ((sales.flatMap (Sale.items tax)).map OrderItem.qty).sum :=
    length_le_sum_qty hsales
  have hstock := stockLeft_add_units hbooked.catalogue hstores
    (balanced_of_run hopened (along_writesFresh_atomic tax _ moves) hrun) hskus
  omega

theorem audit_of_atomic_run_lastUnit :
    ∃ p, Machine.run (step .atomic fun _ => 0) ⟨smallShop 1, singleUnits 2⟩ lastUnit = some p ∧
      confirmedOrders p.state = 1 ∧ (confirmedOrders p.state : ℤ) + stockLeft p.state ≤ 0 + 1 := by
  have hrun : (Machine.run (step .atomic fun _ => 0) ⟨smallShop 1, singleUnits 2⟩
      lastUnit).map (fun q => confirmedOrders q.state) = some 1 := by decide
  obtain ⟨p, hp, hconfirmed⟩ := Option.map_eq_some_iff.mp hrun
  refine ⟨p, hp, hconfirmed, ?_⟩
  refine audit_of_atomic_run (opened_singleUnits 1 2) (by decide) (fun c hc => ?_) hp
  obtain ⟨i, -, rfl⟩ := List.mem_map.mp hc
  exact ⟨by simp, by simp⟩

end Checkout

end InfraReplay.DemoShop
