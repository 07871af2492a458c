import InfraReplay.DemoShop.Checkout
import Mathlib.Tactic.Ring

/-!
# The stock of the demo shop

What the stored orders hold and what is left in the inventory add up to what there was
(`stock_of_run`), whatever steps the requests take and whichever statements raise: always when
stock is reserved by one `UPDATE` relative to the row, and otherwise as long as no checkout writes
back what it read before somebody else wrote (`Checkout.Fresh`).

A transaction that is open has taken from the rows what it has locked (`LockedRow.Accounts`), and
its commit stores as many items.
-/

namespace InfraReplay.DemoShop

open Python

/-- How many of an article the lines ask for. -/
def ordered (sku : String) (lines : List Line) : ℤ :=
  (lines.map fun line => if line.sku = sku then line.qty else 0).sum

/-- How many of an article the stored orders hold. -/
def sold (sku : String) (items : List OrderItem) : ℤ :=
  (items.map fun item => if item.sku = sku then item.qty else 0).sum

/-- What two lists of lines order adds up. -/
theorem ordered_append (sku : String) (lines lines' : List Line) :
    ordered sku (lines ++ lines') = ordered sku lines + ordered sku lines' := by
  rw [ordered, List.map_append, List.sum_append]
  rfl

/-- What two lists of order items sell adds up. -/
theorem sold_append (sku : String) (items items' : List OrderItem) :
    sold sku (items ++ items') = sold sku items + sold sku items' := by
  rw [sold, List.map_append, List.sum_append]
  rfl

/-- The items of an order are its lines. -/
theorem sold_itemsOf (sku orderId : String) (lines : List Line) :
    sold sku (itemsOf orderId lines) = ordered sku lines := by
  rw [sold, itemsOf, List.map_map]
  rfl

/-! ### What a transaction has taken -/

/-- The transaction has taken these lines from the rows, and nothing else. -/
def Shop.Taken (shop : Shop) (txn : ℕ) (lines : List Line) : Prop :=
  ∀ sku row, shop.inventory.get? sku = some row →
    row.Accounts Inventory.available txn (-ordered sku lines)

namespace Shop

variable {shop : Shop} {txn other : ℕ} {lines : List Line}

/-- Only the inventory says what a transaction has taken. -/
theorem Taken.congr {shop' : Shop} (h : shop.Taken txn lines)
    (heq : shop'.inventory = shop.inventory) : shop'.Taken txn lines := by
  intro sku row hrow
  rw [heq] at hrow
  exact h sku row hrow

/-- The rows of the inventory after something was done to every row. -/
theorem get?_map_rows (shop : Shop) (f : LockedRow ℕ Inventory → LockedRow ℕ Inventory)
    (sku : String) : Dict.get? (shop.inventory.map fun p => (p.1, f p.2)) sku =
      (shop.inventory.get? sku).map f := Dict.get?_map (fun _ => f) shop.inventory sku

/-- Rewriting the rows keeps their keys. -/
theorem keys_map_rows (shop : Shop) (f : LockedRow ℕ Inventory → LockedRow ℕ Inventory) :
    Dict.keys (shop.inventory.map fun p => (p.1, f p.2)) = shop.inventory.keys := by
  rw [Dict.keys, List.map_map]
  rfl

/-- A row after a rewriting is a row before it, rewritten. -/
theorem exists_of_get?_map {f : LockedRow ℕ Inventory → LockedRow ℕ Inventory} {sku : String}
    {row : LockedRow ℕ Inventory}
    (h : (Dict.get? (shop.inventory.map fun p => (p.1, f p.2)) sku) = some row) :
    ∃ row₀, shop.inventory.get? sku = some row₀ ∧ row = f row₀ := by
  rw [get?_map_rows] at h
  obtain ⟨row₀, hrow₀, rfl⟩ := Option.map_eq_some_iff.mp h
  exact ⟨row₀, hrow₀, rfl⟩

/-- A transaction that is rolled back has taken nothing. -/
theorem taken_release_self (shop : Shop) (txn : ℕ) : (shop.release txn).Taken txn [] := by
  intro sku row hrow
  obtain ⟨row₀, -, rfl⟩ := exists_of_get?_map hrow
  exact LockedRow.accounts_rollback_self txn row₀

/-- Rolling one transaction back leaves what the others have taken. -/
theorem Taken.release_other (h : shop.Taken other lines) (hne : other ≠ txn) :
    (shop.release txn).Taken other lines := by
  intro sku row hrow
  obtain ⟨row₀, hrow₀, rfl⟩ := exists_of_get?_map hrow
  exact (h sku row₀ hrow₀).rollback_other hne

/-- After its commit a transaction has taken nothing that is still open. -/
theorem taken_commit_self (shop : Shop) (txn : ℕ) (order : Order) (items : List OrderItem)
    (payment : Payment) : (shop.commit txn order items payment).Taken txn [] := by
  intro sku row hrow
  obtain ⟨row₀, -, rfl⟩ := exists_of_get?_map hrow
  exact LockedRow.accounts_commit_self txn row₀

/-- Committing one transaction leaves what the others have taken. -/
theorem Taken.commit_other (h : shop.Taken other lines) (hne : other ≠ txn) (order : Order)
    (items : List OrderItem) (payment : Payment) :
    (shop.commit txn order items payment).Taken other lines := by
  intro sku row hrow
  obtain ⟨row₀, hrow₀, rfl⟩ := exists_of_get?_map hrow
  exact (h sku row₀ hrow₀).commit_other hne

/-- A row of the inventory after one was exchanged. -/
theorem get?_set_cases {sku sku' : String} {row row' : LockedRow ℕ Inventory}
    (h : (shop.inventory.set sku row).get? sku' = some row') :
    (sku = sku' ∧ row = row') ∨ sku ≠ sku' ∧ shop.inventory.get? sku' = some row' := by
  rw [Dict.get?_set] at h
  split_ifs at h with heq
  · exact .inl ⟨heq, Option.some.inj h⟩
  · exact .inr ⟨heq, h⟩

variable {row : LockedRow ℕ Inventory} {line : Line} {v : Inventory}

/-- Writing a row without what the line asks for takes the line. -/
theorem Taken.write (h : shop.Taken txn lines) (hrow : shop.inventory.get? line.sku = some row)
    (hv : v.available = (row.seenBy txn).available - line.qty) :
    Taken { shop with inventory := shop.inventory.set line.sku (row.write txn v) } txn
      (lines ++ [line]) := by
  intro sku row' hrow'
  rw [ordered_append]
  rcases get?_set_cases hrow' with ⟨rfl, rfl⟩ | ⟨hne, hkept⟩
  · have hwrite := (h line.sku row hrow).write (v := v) (d := -line.qty) (by rw [hv]; ring)
    rwa [← neg_add, ← show ordered line.sku [line] = line.qty by simp [ordered]] at hwrite
  · have hnone : ordered sku [line] = 0 := by simp [ordered, hne]
    rw [hnone, add_zero]
    exact h sku row' hkept

/-- The others have taken nothing more. -/
theorem Taken.write_other (h : shop.Taken other lines)
    (hrow : shop.inventory.get? line.sku = some row) (hheld : ¬row.HeldByOther txn)
    (hne : other ≠ txn) (v : Inventory) :
    Taken { shop with inventory := shop.inventory.set line.sku (row.write txn v) } other lines := by
  intro sku row' hrow'
  rcases get?_set_cases hrow' with ⟨rfl, rfl⟩ | ⟨-, hkept⟩
  · exact (h line.sku row hrow).write_other hheld hne v
  · exact h sku row' hkept

/-- A row that is put back as it was. -/
theorem Taken.set_self (h : shop.Taken txn lines) {sku : String}
    (hrow : shop.inventory.get? sku = some row) :
    Taken { shop with inventory := shop.inventory.set sku row } txn lines := by
  intro sku' row' hrow'
  rcases get?_set_cases hrow' with ⟨rfl, rfl⟩ | ⟨-, hkept⟩
  · exact h sku row hrow
  · exact h sku' row' hkept

/-- A line of an article that has no row takes nothing. -/
theorem Taken.concat_of_none (h : shop.Taken txn lines)
    (hrow : shop.inventory.get? line.sku = none) : shop.Taken txn (lines ++ [line]) := by
  intro sku row hsku
  have hne : line.sku ≠ sku := by
    rintro rfl
    rw [hrow] at hsku
    cases hsku
  have hnone : ordered sku [line] = 0 := by simp [ordered, hne]
  rw [ordered_append, hnone, add_zero]
  exact h sku row hsku

end Shop

/-! ### One step -/

namespace Checkout

/-- The lines whose stock the checkout holds. Unless one was short, they are those that `_reserve`
has gone through. -/
def Holds (shop : Shop) (c : Checkout) : Prop :=
  ∃ taken, shop.Taken c.txn taken ∧
    match c.stage with
    | .reserving _ lines todo short => short = [] → lines = taken ++ todo
    | _ => taken = []

/-- The next `UPDATE` writes back what was read only if that is what is there. -/
def Fresh (shop : Shop) (c : Checkout) : Prop :=
  match c.stage with
  | .reserving _ _ (line :: _) _ =>
    ∀ row ∈ shop.inventory.get? line.sku, line.availableSeen = (row.seenBy c.txn).available
  | _ => True

instance (shop : Shop) (c : Checkout) : Decidable (c.Fresh shop) := by
  unfold Fresh
  split <;> infer_instance

/-- Since the start, every article has lost exactly what the stored orders hold. -/
def Balanced (shop₀ shop : Shop) : Prop :=
  ∀ sku row₀, shop₀.inventory.get? sku = some row₀ →
    ∃ row, shop.inventory.get? sku = some row ∧
      row.committed.available + sold sku shop.orderItems =
        row₀.committed.available + sold sku shop₀.orderItems

variable {reserve : Reserve} {tax : ℤ → ℤ} {hexes : Hexes} {shop₀ shop shop' : Shop}
  {c c' u : Checkout}

/-- A write that is not committed moves no stock. -/
theorem Balanced.set {sku : String} {row row' : LockedRow ℕ Inventory} (h : Balanced shop₀ shop)
    (hrow : shop.inventory.get? sku = some row) (hcommitted : row'.committed = row.committed) :
    Balanced shop₀ { shop with inventory := shop.inventory.set sku row' } := by
  intro sku' row₀ hrow₀
  obtain ⟨row'', hrow'', hsum⟩ := h sku' row₀ hrow₀
  by_cases heq : sku = sku'
  · subst heq
    obtain rfl := Option.some.inj (hrow.symm.trans hrow'')
    refine ⟨row', by rw [Dict.get?_set, if_pos rfl], ?_⟩
    rw [hcommitted]
    exact hsum
  · exact ⟨row'', by rw [Dict.get?_set, if_neg heq, hrow''], hsum⟩

/-- A rollback moves no stock. -/
theorem Balanced.release (h : Balanced shop₀ shop) (txn : ℕ) :
    Balanced shop₀ (shop.release txn) := by
  intro sku row₀ hrow₀
  obtain ⟨row, hrow, hsum⟩ := h sku row₀ hrow₀
  refine ⟨row.rollback txn, ?_, hsum⟩
  rw [Shop.release, Shop.get?_map_rows, hrow, Option.map_some]

/-- A commit moves what the transaction has taken into its order. -/
theorem Balanced.commit {txn : ℕ} {lines : List Line} (h : Balanced shop₀ shop)
    (htaken : shop.Taken txn lines) (order : Order) (orderId : String) (payment : Payment) :
    Balanced shop₀ (shop.commit txn order (itemsOf orderId lines) payment) := by
  intro sku row₀ hrow₀
  obtain ⟨row, hrow, hsum⟩ := h sku row₀ hrow₀
  refine ⟨row.commit txn, ?_, ?_⟩
  · rw [Shop.commit, Shop.get?_map_rows, hrow, Option.map_some]
  · show _ + sold sku (shop.orderItems ++ itemsOf orderId lines) = _
    rw [(htaken sku row hrow).amount_commit, sold_append, sold_itemsOf, ← hsum]
    ring

/-- A relative update takes the line off the row. -/
theorem available_of_reservation {line : Line} {row v : Inventory}
    (h : reservation reserve line row = some v)
    (hfresh : reserve = .readThenWrite → line.availableSeen = row.available) :
    v.available = row.available - line.qty := by
  cases reserve with
  | atomic =>
    simp only [reservation] at h
    split_ifs at h
    rw [← Option.some.inj h]
  | readThenWrite =>
    rw [← Option.some.inj h, ← hfresh rfl]

/-- A line that finds its row always matches it, unless the update has a condition. -/
theorem atomic_of_reservation_eq_none {line : Line} {row : Inventory}
    (h : reservation reserve line row = none) : reserve = .atomic := by
  cases reserve with
  | atomic => rfl
  | readThenWrite => cases h

/-- A shortage is never forgotten. -/
theorem eq_nil_of_shortAfter {short : List String} {line : Line} {matched : Bool}
    (h : shortAfter reserve short line matched = []) : short = [] := by
  unfold shortAfter at h
  split_ifs at h
  · exact (List.append_eq_nil_iff.mp h).1
  · exact h

/-- Outside `_reserve` a checkout holds nothing. -/
theorem holds_nil (htaken : shop.Taken c.txn [])
    (hstage : ∀ order lines todo short, c.stage ≠ .reserving order lines todo short) :
    c.Holds shop := by
  refine ⟨[], htaken, ?_⟩
  split
  · rename_i order lines todo short hc
    exact absurd hc (hstage order lines todo short)
  · rfl

/-- Outside the reserving loop a checkout has taken nothing. -/
theorem Holds.taken_nil (h : c.Holds shop)
    (hstage : ∀ order lines todo short, c.stage ≠ .reserving order lines todo short) :
    shop.Taken c.txn [] := by
  obtain ⟨taken, htaken, hlines⟩ := h
  split at hlines
  · rename_i order lines todo short hc
    exact absurd hc (hstage order lines todo short)
  · rwa [← hlines]

/-- What a checkout holds in `_reserve`. -/
theorem Holds.reserving {order : Order} {lines todo : List Line} {short : List String}
    (h : c.Holds shop) (hstage : c.stage = .reserving order lines todo short) :
    ∃ taken, shop.Taken c.txn taken ∧ (short = [] → lines = taken ++ todo) := by
  obtain ⟨taken, htaken, hlines⟩ := h
  rw [hstage] at hlines
  exact ⟨taken, htaken, hlines⟩

/-- What a step does to the stock of the checkout that takes it. -/
theorem Holds.takes (h : c.Holds shop) (hbalanced : Balanced shop₀ shop)
    (hfresh : reserve = .readThenWrite → c.Fresh shop)
    (ht : Takes reserve tax hexes shop c c' shop') : c'.Holds shop' ∧ Balanced shop₀ shop' := by
  cases ht with
  | refused hstage | known hstage | missed hstage | priced hstage | unknown hstage =>
    -- before `_reserve` a checkout holds nothing
    exact ⟨holds_nil (h.taken_nil (by simp [hstage])) (by simp), hbalanced⟩
  | inserted hstage horder hfree hshort htodo =>
    refine ⟨⟨[], (h.taken_nil (by simp [hstage])).congr rfl, fun hs => ?_⟩, hbalanced⟩
    rw [htodo, if_pos hs, List.nil_append]
  | @gone order lines todo line short hstage hrow =>
    obtain ⟨taken, htaken, hlines⟩ := h.reserving hstage
    refine ⟨⟨taken ++ [line], htaken.concat_of_none hrow, fun hs => ?_⟩, hbalanced⟩
    rw [hlines (eq_nil_of_shortAfter hs), List.append_assoc, List.singleton_append]
  | @unmatched order lines todo line short row hstage hrow hnone =>
    obtain ⟨taken, htaken, -⟩ := h.reserving hstage
    refine ⟨⟨taken, htaken.set_self hrow, fun hs => ?_⟩, hbalanced.set hrow rfl⟩
    -- the line is short, so nothing is promised
    obtain rfl := atomic_of_reservation_eq_none hnone
    rw [shortAfter, if_pos ⟨rfl, rfl⟩] at hs
    exact absurd hs (by simp)
  | @written order lines todo line short row v hstage hrow hsome hheld =>
    obtain ⟨taken, htaken, hlines⟩ := h.reserving hstage
    -- what is written is what is there less the line, in both modes
    have hv : v.available = (row.seenBy c.txn).available - line.qty := by
      refine available_of_reservation hsome fun hmode => ?_
      have hcurrent := hfresh hmode
      rw [Fresh, hstage] at hcurrent
      exact hcurrent row hrow
    refine ⟨⟨taken ++ [line], htaken.write hrow hv, fun hs => ?_⟩, hbalanced.set hrow rfl⟩
    rw [hlines hs, List.append_assoc, List.singleton_append]
  | outOfStock hstage =>
    exact ⟨holds_nil (Shop.taken_release_self shop c.txn) (by simp), hbalanced.release c.txn⟩
  | declined hstage | confirmed hstage =>
    -- what is stored with the order is what was taken
    obtain ⟨taken, htaken, hlines⟩ := h.reserving hstage
    obtain rfl := (hlines rfl).trans (List.append_nil taken)
    exact ⟨holds_nil (Shop.taken_commit_self shop c.txn _ _ _) (by simp),
      hbalanced.commit htaken _ _ _⟩

/-- A step of one checkout takes nothing from the others. -/
theorem Holds.takes_other (h : u.Holds shop) (hne : u.txn ≠ c.txn)
    (ht : Takes reserve tax hexes shop c c' shop') : u.Holds shop' := by
  obtain ⟨taken, htaken, hlines⟩ := h
  refine ⟨taken, ?_, hlines⟩
  cases ht with
  | refused | known | missed | priced | unknown | gone => exact htaken
  | inserted => exact htaken.congr rfl
  | unmatched _ hrow => exact htaken.set_self hrow
  | written _ hrow _ hheld => exact htaken.write_other hrow hheld hne _
  | outOfStock => exact htaken.release_other hne
  | declined => exact htaken.commit_other hne _ _ _
  | confirmed => exact htaken.commit_other hne _ _ _

/-! ### Runs -/

/-- The checkouts at the start: nothing is locked, and every request has a transaction of its
own. -/
structure Opened (shop : Shop) (requests : List Checkout) : Prop where
  unlocked : ∀ sku row, shop.inventory.get? sku = some row → row.pending = none
  arrived : ∀ c ∈ requests, c.stage = .arrived
  txns : requests.Pairwise fun c u => c.txn ≠ u.txn

/-- A checkout that writes back what it read does so only while that is what is there. -/
def WritesFresh (reserve : Reserve) (p : Pool Shop Checkout) (move : Move) : Prop :=
  reserve = .readThenWrite → ∀ c ∈ p.tasks[move.place]?, c.Fresh p.state

variable {requests : List Checkout} {moves : List Move} {p p' : Pool Shop Checkout} {move : Move}

/-- The stock of all checkouts. -/
abbrev StockInv (shop₀ : Shop) : Pool Shop Checkout → Prop :=
  Pool.Inv (Balanced shop₀) (fun shop c => c.Holds shop) fun c u => c.txn ≠ u.txn

/-- The invariant holds when the shop opens. -/
theorem Opened.stockInv (h : Opened shop₀ requests) : StockInv shop₀ ⟨shop₀, requests⟩ where
  shared sku row hrow := ⟨row, hrow, rfl⟩
  own c hc := by
    refine holds_nil (fun sku row hrow => ?_) (by simp [h.arrived c hc])
    refine LockedRow.accounts_zero (LockedRow.seenBy_of_ne fun q hq => ?_)
    rw [h.unlocked sku row hrow] at hq
    cases hq
  apart := h.txns

/-- A checkout keeps its transaction. -/
theorem txn_of_takes (h : Takes reserve tax hexes shop c c' shop') : c'.txn = c.txn := by
  cases h <;> rfl

/-- Checkouts have transactions of their own, so a step keeps an invariant when the statement that
is taken, or that raises, keeps the part of its checkout and the parts of the others. -/
theorem inv_step {shared : Shop → Prop} {own : Shop → Checkout → Prop}
    (hinv : Pool.Inv shared own (fun c u => c.txn ≠ u.txn) p)
    (hstep : step reserve tax p move = some p')
    (hgoOn : ∀ c c' shop' hexes, p.tasks[move.place]? = some c →
      Takes reserve tax hexes p.state c c' shop' →
        shared shop' ∧ own shop' c' ∧
          ∀ u ∈ p.tasks, own p.state u → u.txn ≠ c.txn → own shop' u)
    (hraises : ∀ c, p.tasks[move.place]? = some c →
      shared (p.state.release c.txn) ∧ own (p.state.release c.txn) (c.toStage .failed) ∧
        ∀ u ∈ p.tasks, own p.state u → u.txn ≠ c.txn → own (p.state.release c.txn) u) :
    Pool.Inv shared own (fun c u => c.txn ≠ u.txn) p' := by
  have hsymm : ∀ c u : Checkout, c.txn ≠ u.txn → u.txn ≠ c.txn := fun c u h => h.symm
  cases move with
  | goOn place hexes =>
    refine hinv.step hsymm hstep fun c c' shop' hc hnext => ?_
    have ht := takes_of_next hnext
    obtain ⟨hshared, hown, hothers⟩ := hgoOn c c' shop' hexes hc ht
    refine ⟨hshared, hown, fun u hu hne hmem => ⟨hothers u hmem hu hne.symm, ?_⟩⟩
    rwa [txn_of_takes ht]
  | raises place =>
    -- the statement rolls back
    refine hinv.step hsymm hstep fun c c' shop' hc hfail => ?_
    obtain ⟨rfl, rfl⟩ := eq_of_fail hfail
    obtain ⟨hshared, hown, hothers⟩ := hraises c hc
    exact ⟨hshared, hown, fun u hu hne hmem => ⟨hothers u hmem hu hne.symm, hne⟩⟩

/-- A step keeps the invariant: the checkout that moves by `Takes`, the others by the locks. -/
theorem StockInv.step (hinv : StockInv shop₀ p) (hfresh : WritesFresh reserve p move)
    (hstep : step reserve tax p move = some p') : StockInv shop₀ p' := by
  refine inv_step hinv hstep (fun c c' shop' hexes hc ht => ?_) fun c hc => ?_
  · obtain ⟨hholds, hbalanced⟩ := (hinv.own c (List.mem_of_getElem? hc)).takes hinv.shared
      (fun hmode => hfresh hmode c hc) ht
    exact ⟨hbalanced, hholds, fun u _ hu hne => hu.takes_other hne ht⟩
  · refine ⟨hinv.shared.release c.txn,
      holds_nil (Shop.taken_release_self p.state c.txn) (by simp), ?_⟩
    rintro u - ⟨taken, htaken, hlines⟩ hne
    exact ⟨taken, htaken.release_other hne, hlines⟩

/-- What the stored orders hold has left the inventory, and nothing else has. -/
theorem balanced_of_run (hopened : Opened shop₀ requests)
    (hfresh : Machine.Along (step reserve tax) (WritesFresh reserve) ⟨shop₀, requests⟩ moves)
    (hrun : Machine.run (step reserve tax) ⟨shop₀, requests⟩ moves = some p) :
    Balanced shop₀ p.state :=
  (Machine.invariant (fun _ _ _ hinv hok hstep => StockInv.step hinv hok hstep) hopened.stockInv
    hfresh hrun).shared

/-! ### No negative stock -/

/-- No row has less than nothing, committed or not. -/
def InStock (shop : Shop) : Prop :=
  ∀ sku row, shop.inventory.get? sku = some row → row.All fun r => 0 ≤ r.available

/-- What a checkout is going to write back was enough for its line. -/
def Covered (reserve : Reserve) (c : Checkout) : Prop :=
  match c.stage with
  | .reserving _ _ todo _ => reserve = .readThenWrite → ∀ line ∈ todo, line.qty ≤ line.availableSeen
  | _ => True

/-- A row that is written with no negative stock keeps the shop in stock. -/
theorem InStock.set {sku : String} {row : LockedRow ℕ Inventory} (h : InStock shop)
    (hrow : row.All fun r => 0 ≤ r.available) :
    InStock { shop with inventory := shop.inventory.set sku row } := by
  intro sku' row' hrow'
  rcases Shop.get?_set_cases hrow' with ⟨rfl, rfl⟩ | ⟨-, hkept⟩
  · exact hrow
  · exact h sku' row' hkept

/-- A rollback only brings back committed rows. -/
theorem InStock.release (h : InStock shop) (txn : ℕ) : InStock (shop.release txn) := by
  intro sku row hrow
  obtain ⟨row', hrow', rfl⟩ := Shop.exists_of_get?_map hrow
  exact (h sku row' hrow').rollback txn

/-- A commit only makes current rows the committed ones. -/
theorem InStock.commit (h : InStock shop) (txn : ℕ) (order : Order) (items : List OrderItem)
    (payment : Payment) : InStock (shop.commit txn order items payment) := by
  intro sku row hrow
  obtain ⟨row', hrow', rfl⟩ := Shop.exists_of_get?_map hrow
  exact (h sku row' hrow').commit txn

/-- What is reserved was there, or was there when it was read. -/
theorem nonneg_of_reservation {line : Line} {row v : Inventory}
    (h : reservation reserve line row = some v)
    (hcovered : reserve = .readThenWrite → line.qty ≤ line.availableSeen) : 0 ≤ v.available := by
  cases reserve with
  | atomic =>
    simp only [reservation] at h
    split_ifs at h with hqty
    rw [← Option.some.inj h]
    exact sub_nonneg.mpr hqty
  | readThenWrite =>
    rw [← Option.some.inj h]
    exact sub_nonneg.mpr (hcovered rfl)

/-- The lines that `_reserve` is going to write are covered. -/
theorem le_of_shortBefore_eq_nil {lines : List Line} (h : shortBefore .readThenWrite lines = [])
    {line : Line} (hline : line ∈ lines) : line.qty ≤ line.availableSeen := by
  have hnone := List.filter_eq_nil_iff.mp (List.map_eq_nil_iff.mp h) line hline
  simpa using hnone

/-- A step of a checkout keeps it covered, and the shop in stock. -/
theorem Covered.takes (h : c.Covered reserve) (hstock : InStock shop)
    (ht : Takes reserve tax hexes shop c c' shop') : c'.Covered reserve ∧ InStock shop' := by
  cases ht with
  | refused | known | missed | priced | unknown => exact ⟨trivial, hstock⟩
  | inserted hstage horder hfree hshort htodo =>
    -- nothing was short when the order was written down
    refine ⟨fun hmode line hline => ?_, hstock⟩
    subst hmode
    rw [htodo] at hline
    split_ifs at hline with hnil
    · exact le_of_shortBefore_eq_nil (hshort ▸ hnil) hline
    · cases hline
  | gone hstage hrow =>
    rw [Covered, hstage] at h
    exact ⟨fun hmode line hline => h hmode line (List.mem_cons_of_mem _ hline), hstock⟩
  | unmatched hstage hrow =>
    rw [Covered, hstage] at h
    exact ⟨fun hmode line hline => h hmode line (List.mem_cons_of_mem _ hline),
      hstock.set (hstock _ _ hrow)⟩
  | written hstage hrow hsome hheld =>
    -- the value written is not negative: by the guard of the UPDATE, or by what is covered
    rw [Covered, hstage] at h
    have hv := nonneg_of_reservation hsome fun hmode => h hmode _ List.mem_cons_self
    exact ⟨fun hmode line hline => h hmode line (List.mem_cons_of_mem _ hline),
      hstock.set ((hstock _ _ hrow).write hv _)⟩
  | outOfStock => exact ⟨trivial, hstock.release _⟩
  | declined => exact ⟨trivial, hstock.commit _ _ _ _⟩
  | confirmed => exact ⟨trivial, hstock.commit _ _ _ _⟩

/-- No run makes the stock negative, not even one that sells what is not there. -/
theorem inStock_of_run (hopened : Opened shop₀ requests) (hstock : InStock shop₀)
    (hrun : Machine.run (step reserve tax) ⟨shop₀, requests⟩ moves = some p) :
    InStock p.state := by
  have hinit : Pool.Inv InStock (fun _ c => c.Covered reserve) (fun c u => c.txn ≠ u.txn)
      ⟨shop₀, requests⟩ :=
    ⟨hstock, fun c hc => by rw [Covered, hopened.arrived c hc]; trivial, hopened.txns⟩
  refine (Machine.invariant_run (fun q move q' hinv hstep => ?_) hinit hrun).shared
  refine inv_step hinv hstep (fun c c' shop' hexes hc ht => ?_) fun c hc => ?_
  · obtain ⟨hcovered, hstock⟩ := (hinv.own c (List.mem_of_getElem? hc)).takes hinv.shared ht
    exact ⟨hstock, hcovered, fun u _ hu _ => hu⟩
  · exact ⟨hinv.shared.release c.txn, trivial, fun u _ hu _ => hu⟩

/-- A relative update is never stale. -/
theorem along_writesFresh_atomic (tax : ℤ → ℤ) (p : Pool Shop Checkout) (moves : List Move) :
    Machine.Along (step .atomic tax) (WritesFresh .atomic) p moves := by
  refine Machine.along_of_forall (fun q move hmode => ?_) p moves
  cases hmode

/-- **No unit is sold twice.** When stock is reserved by one relative `UPDATE`, then after any steps
of any number of checkouts, with any statements raising, what is left of an article and what the
stored orders hold of it add up to what there was, and neither is oversold. -/
theorem stock_of_atomic_run (hopened : Opened shop₀ requests) (hstock : InStock shop₀)
    (hrun : Machine.run (step .atomic tax) ⟨shop₀, requests⟩ moves = some p) {sku : String}
    {row₀ : LockedRow ℕ Inventory} (hrow₀ : shop₀.inventory.get? sku = some row₀) :
    ∃ row, p.state.inventory.get? sku = some row ∧ 0 ≤ row.committed.available ∧
      row.committed.available + sold sku p.state.orderItems =
        row₀.committed.available + sold sku shop₀.orderItems := by
  have halong := along_writesFresh_atomic tax ⟨shop₀, requests⟩ moves
  obtain ⟨row, hrow, hsum⟩ := balanced_of_run hopened halong hrun sku row₀ hrow₀
  exact ⟨row, hrow, (inStock_of_run hopened hstock hrun sku row hrow).1, hsum⟩

/-- A shop with one user, one article and so many of it. -/
def smallShop (available : ℤ) : Shop where
  users := [{ id := "usr_4a1c8e", handle := "dana" }]
  inventory := [("FILTER-350", { committed :=
    { name := "Micro-filters (350 pack)", unitCents := 899, available := available } })]

/-- Requests for one unit each. -/
def singleUnits (n : ℕ) : List Checkout :=
  (List.range n).map fun i =>
    { txn := i, handle := "dana", items := [{ sku := "FILTER-350" }], token := "tok_visa" }

/-- The small shop is open, with nothing locked and no checkout begun. -/
theorem opened_singleUnits (available : ℤ) (n : ℕ) :
    Opened (smallShop available) (singleUnits n) where
  unlocked sku row hrow := by
    obtain ⟨-, rfl⟩ : "FILTER-350" = sku ∧ _ = row := by
      simpa [smallShop, Dict.get?_cons] using hrow
    rfl
  arrived c hc := by
    obtain ⟨i, -, rfl⟩ := List.mem_map.mp hc
    rfl
  txns := by
    rw [singleUnits, List.pairwise_map]
    exact List.nodup_range

/-- The small shop is in stock. -/
theorem inStock_smallShop {available : ℤ} (h : 0 ≤ available) : InStock (smallShop available) := by
  intro sku row hrow
  obtain ⟨-, rfl⟩ : "FILTER-350" = sku ∧ _ = row := by simpa [smallShop, Dict.get?_cons] using hrow
  exact ⟨h, by simp⟩

/-- Two requests read the last unit, and the second one waits for the first to commit. -/
def lastUnit : List Move :=
  [.goOn 0 {}, .goOn 1 {}, .goOn 0 {}, .goOn 1 {}, .goOn 0 { order := "1" },
    .goOn 1 { order := "2" }, .goOn 0 {}, .goOn 0 { payment := "1" }, .goOn 1 {},
    .goOn 1 { payment := "2" }]

theorem stock_of_atomic_run_lastUnit :
    ∃ p, Machine.run (step .atomic fun _ => 0) ⟨smallShop 1, singleUnits 2⟩ lastUnit = some p ∧
      sold "FILTER-350" p.state.orderItems = 1 ∧
      ∃ row, p.state.inventory.get? "FILTER-350" = some row ∧ 0 ≤ row.committed.available ∧
        row.committed.available + sold "FILTER-350" p.state.orderItems = 1 + 0 := by
  have hrun : (Machine.run (step .atomic fun _ => 0) ⟨smallShop 1, singleUnits 2⟩ lastUnit).isSome =
    true := by decide
  obtain ⟨p, hp⟩ := Option.isSome_iff_exists.mp hrun
  have hrow₀ : (smallShop 1).inventory.get? "FILTER-350" = some _ := rfl
  have hstock := stock_of_atomic_run (opened_singleUnits 1 2) (inStock_smallShop (by decide)) hp
    hrow₀
  have hsold : (Machine.run (step .atomic fun _ => 0) ⟨smallShop 1, singleUnits 2⟩ lastUnit).map
      (fun q => sold "FILTER-350" q.state.orderItems) = some 1 := by decide
  rw [hp] at hsold
  exact ⟨p, hp, Option.some.inj hsold, hstock⟩

end Checkout

end InfraReplay.DemoShop
