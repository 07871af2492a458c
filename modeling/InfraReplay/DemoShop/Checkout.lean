import InfraReplay.Common.Pool
import InfraReplay.Common.RowLock
import InfraReplay.Python.Text
import InfraReplay.Python.Value

/-!
# The checkout of the demo shop

The service that is recorded, replayed and diffed. `checkout` is one task for each request, which
takes one step for each statement it sends to the database: the user, one `SELECT` for each item,
the `INSERT`s of the order, one `UPDATE` for each line, the commit. Between two statements any
other request may take its steps, and any statement may fail, which rolls the transaction back.

Rows of `inventory` are under row locks; inserted rows are kept with their transaction until it
commits, except for the primary keys of orders, which are taken from the `INSERT` on
(`Shop.inserting`). The tax is a parameter, since the code computes it in floating point.
-/

namespace InfraReplay.DemoShop

open Python

/-! ### Tables -/

/-- A row of `users`, with the columns that are read. -/
structure User where
  id : String
  handle : String

/-- A row of `inventory`, under its `sku`. -/
structure Inventory where
  name : String
  unitCents : ℤ
  available : ℤ
  deriving DecidableEq

inductive OrderStatus where
  | pending
  | confirmed
  deriving DecidableEq

/-- A row of `orders`. -/
structure Order where
  id : String
  userId : String
  status : OrderStatus
  totalCents : ℤ
  deriving DecidableEq

/-- A row of `order_items`, without its running number. -/
structure OrderItem where
  orderId : String
  sku : String
  qty : ℤ
  unitCents : ℤ
  deriving DecidableEq

inductive PaymentState where
  | declined
  | authorized
  deriving DecidableEq

def PaymentState.value : PaymentState → String
  | .declined => "declined"
  | .authorized => "authorized"

/-- A row of `payments`. -/
structure Payment where
  id : String
  orderId : String
  provider : String
  state : PaymentState
  amountCents : ℤ
  reference : Option String
  declineCode : Option String
  deriving DecidableEq

/-- The database of the shop. A transaction is named by a number. -/
structure Shop where
  users : List User
  inventory : Dict String (LockedRow ℕ Inventory)
  orders : List Order := []
  orderItems : List OrderItem := []
  payments : List Payment := []
  /-- The keys of the orders that are inserted and not committed, with their transactions. -/
  inserting : List (ℕ × String) := []

/-! ### Requests -/

/-- `Reserve`. -/
inductive Reserve where
  | readThenWrite
  | atomic
  deriving DecidableEq

/-- `SHIPPING_CENTS`. -/
def shippingCents : ℤ := 500

/-- `PAYMENT_LIMIT_CENTS`. -/
def paymentLimitCents : ℤ := 50000

/-- `DECLINE_PREFIX`. -/
def declinePrefix : String := "tok_decline"

/-- An entry of `items` in the body. -/
structure Item where
  sku : String
  qty : ℤ := 1

/-- A priced item. -/
structure Line where
  sku : String
  name : String
  qty : ℤ
  unitCents : ℤ
  availableSeen : ℤ
  deriving DecidableEq

/-- How far a checkout has come. -/
inductive Stage where
  | arrived
  /-- `_price`. `held` is what the variable `row` holds: the session has no other reference to the
  rows it has loaded. -/
  | pricing (user : User) (todo : List Item) (held : Option (String × Inventory))
      (lines : List Line) (missing : List String)
  /-- The order is inserted and `_reserve` goes through the lines. -/
  | reserving (order : Order) (lines todo : List Line) (short : List String)
  | answered (status : ℕ) (payload : Value)
  /-- A statement raised. -/
  | failed

/-- One `POST /api/v1/checkout`. -/
structure Checkout where
  txn : ℕ
  /-- The header `x-demo-user`. -/
  handle : String
  items : List Item
  /-- `body["payment_method"]["token"]`. -/
  token : String
  stage : Stage := .arrived

/-- The ids that a step makes up. -/
structure Hexes where
  order : String := ""
  payment : String := ""
  reference : String := ""

/-! ### Pieces of the checkout -/

/-- The line of an item whose row was found. -/
def lineOf (item : Item) (row : Inventory) : Line where
  sku := item.sku
  name := row.name
  qty := item.qty
  unitCents := row.unitCents
  availableSeen := row.available

def subtotalOf (lines : List Line) : ℤ :=
  lines.foldl (fun total line => total + line.qty * line.unitCents) 0

section Amounts

variable (tax : ℤ → ℤ)

def totalOf (lines : List Line) : ℤ :=
  subtotalOf lines + shippingCents + tax (subtotalOf lines)

/-- The order that is inserted. -/
def orderOf (hexes : Hexes) (user : User) (lines : List Line) : Order where
  id := "ord_" ++ hexes.order
  userId := user.id
  status := .pending
  totalCents := totalOf tax lines

/-- The rows of `order_items` that are inserted with the order. -/
def itemsOf (orderId : String) (lines : List Line) : List OrderItem :=
  lines.map fun line =>
    { orderId := orderId, sku := line.sku, qty := line.qty, unitCents := line.unitCents }

/-- The gateway declines the payment. -/
def Declined (totalCents : ℤ) (token : String) : Prop :=
  paymentLimitCents < totalCents ∨ startsWith token declinePrefix = true

instance (totalCents : ℤ) (token : String) : Decidable (Declined totalCents token) := by
  unfold Declined
  infer_instance

/-- `_authorize`. -/
def authorize (hexes : Hexes) (orderId : String) (totalCents : ℤ) (token : String) : Payment :=
  let declined := decide (Declined totalCents token)
  { id := "pay_" ++ hexes.payment
    orderId := orderId
    provider := "stripe"
    state := if declined then .declined else .authorized
    amountCents := totalCents
    reference := if declined then none else some ("pi_" ++ hexes.reference)
    declineCode := if declined then some "insufficient_funds" else none }

/-- What an `UPDATE` of `_reserve` makes of the row of a line, where its condition holds. -/
def reservation : Reserve → Line → Inventory → Option Inventory
  | .atomic, line, row =>
    if line.qty ≤ row.available then some { row with available := row.available - line.qty }
    else none
  -- an absolute value, from what was read
  | .readThenWrite, line, row => some { row with available := line.availableSeen - line.qty }

/-- The lines that `_reserve` rejects before it writes. -/
def shortBefore : Reserve → List Line → List String
  | .atomic, _ => []
  | .readThenWrite, lines =>
    (lines.filter fun line => line.availableSeen < line.qty).map Line.sku

/-- The lines that did not get their stock, after the `UPDATE` of one more. -/
def shortAfter (reserve : Reserve) (short : List String) (line : Line) (matched : Bool) :
    List String :=
  if reserve = .atomic ∧ matched = false then short ++ [line.sku] else short

def optStr : Option String → Value
  | none => .none
  | some s => .str s

/-- `_declined_body`. -/
def declinedBody (payment : Payment) : Value :=
  .dict [
    ("type", .str "https://demo.shop/errors/payment-declined"),
    ("title", .str "Payment was declined"),
    ("status", .int 402),
    ("order_id", .str payment.orderId),
    ("payment", .dict [
      ("state", .str payment.state.value),
      ("provider", .str payment.provider),
      ("decline_code", optStr payment.declineCode)])]

/-- `_confirmed_body`. -/
def confirmedBody (lines : List Line) (payment : Payment) : Value :=
  .dict [
    ("order_id", .str payment.orderId),
    ("status", .str "confirmed"),
    ("currency", .str "GBP"),
    ("totals", .dict [
      ("subtotal_cents", .int (subtotalOf lines)),
      ("shipping_cents", .int shippingCents),
      ("tax_cents", .int (tax (subtotalOf lines))),
      ("grand_total_cents", .int (totalOf tax lines))]),
    ("payment", .dict [
      ("state", .str payment.state.value),
      ("provider", .str payment.provider),
      ("reference", optStr payment.reference)]),
    ("line_items", .list (lines.map fun line => .dict [
      ("sku", .str line.sku),
      ("name", .str line.name),
      ("qty", .int line.qty),
      ("unit_cents", .int line.unitCents)]))]

/-- The body of a rejected cart. -/
def conflictBody (error : String) (skus : List String) (rest : List (String × Value)) : Value :=
  .dict ([("error", .str error), ("skus", .list (skus.map .str))] ++ rest)

end Amounts

/-! ### Transactions -/

namespace Shop

/-- What a transaction holds is let go. -/
def release (shop : Shop) (txn : ℕ) : Shop :=
  { shop with
    inventory := shop.inventory.map fun p => (p.1, p.2.rollback txn)
    inserting := shop.inserting.filter fun p => p.1 ≠ txn }

/-- The commit of a transaction that has inserted an order, its items and a payment. -/
def commit (shop : Shop) (txn : ℕ) (order : Order) (items : List OrderItem) (payment : Payment) :
    Shop :=
  { shop with
    inventory := shop.inventory.map fun p => (p.1, p.2.commit txn)
    orders := shop.orders ++ [order]
    orderItems := shop.orderItems ++ items
    payments := shop.payments ++ [payment]
    inserting := shop.inserting.filter fun p => p.1 ≠ txn }

/-- Nobody has inserted an order of this key. -/
def IsFree (shop : Shop) (orderId : String) : Prop :=
  orderId ∉ shop.orders.map Order.id ∧ orderId ∉ shop.inserting.map Prod.snd

instance (shop : Shop) (orderId : String) : Decidable (shop.IsFree orderId) := by
  unfold IsFree
  infer_instance

end Shop

namespace Checkout

/-- The checkout at another stage. -/
def toStage (c : Checkout) (stage : Stage) : Checkout := { c with stage := stage }

@[simp]
theorem stage_toStage (c : Checkout) (stage : Stage) : (c.toStage stage).stage = stage := rfl

@[simp]
theorem txn_toStage (c : Checkout) (stage : Stage) : (c.toStage stage).txn = c.txn := rfl

section Steps

variable (reserve : Reserve) (tax : ℤ → ℤ)

/-- The end of `checkout`, after `_reserve`. -/
def settle (hexes : Hexes) (shop : Shop) (c : Checkout) (order : Order) (lines : List Line)
    (short : List String) : Option (Checkout × Shop) :=
  if short ≠ [] then
    some (c.toStage (.answered 409
      (conflictBody "out_of_stock" short [("order_id", .str order.id)])), shop.release c.txn)
  else
    let payment := authorize hexes order.id order.totalCents c.token
    -- a key that is taken raises
    if payment.id ∈ shop.payments.map Payment.id then none
    else if payment.state = .declined then
      some (c.toStage (.answered 402 (declinedBody payment)),
        shop.commit c.txn order (itemsOf order.id lines) payment)
    else
      some (c.toStage (.answered 201 (confirmedBody tax lines payment)),
        shop.commit c.txn { order with status := .confirmed } (itemsOf order.id lines) payment)

/-- The row that the session hands out for one it reads: a row it still knows is not refreshed. -/
def handOut (held : Option (String × Inventory)) (sku : String) (read : Inventory) : Inventory :=
  match held with
  | some (sku', row) => if sku' = sku then row else read
  | none => read

/-- The next statement of a checkout, and what is done before the one after it. -/
def next (hexes : Hexes) (shop : Shop) (c : Checkout) : Option (Checkout × Shop) :=
  match c.stage with
  | .arrived =>
    -- `create_checkout` answers itself where the header is missing
    if c.handle = "" then
      some (c.toStage (.answered 401
        (.dict [("error", .str "missing_user_header"), ("header", .str "x-demo-user")])), shop)
    else
      match shop.users.find? fun user => user.handle = c.handle with
      | none =>
        some (c.toStage (.answered 401
          (.dict [("error", .str "unknown_user"), ("handle", .str c.handle)])), shop)
      | some user => some (c.toStage (.pricing user c.items none [] []), shop)
  | .pricing user (item :: todo) held lines missing =>
    match shop.inventory.get? item.sku with
    | none => some (c.toStage (.pricing user todo none lines (missing ++ [item.sku])), shop)
    | some row =>
      let seen := handOut held item.sku (row.seenBy c.txn)
      some (c.toStage (.pricing user todo (some (item.sku, seen)) (lines ++ [lineOf item seen])
        missing), shop)
  | .pricing user [] _ lines missing =>
    -- the flush of the order, and the check of `_reserve` that needs no statement
    if missing ≠ [] then
      some (c.toStage (.answered 409 (conflictBody "unknown_sku" missing [])), shop)
    else
      let order := orderOf tax hexes user lines
      let short := shortBefore reserve lines
      if shop.IsFree order.id then
        some (c.toStage (.reserving order lines (if short = [] then lines else []) short),
          { shop with inserting := shop.inserting ++ [(c.txn, order.id)] })
      else none
  | .reserving order lines (line :: todo) short =>
    match shop.inventory.get? line.sku with
    | none =>
      some (c.toStage (.reserving order lines todo (shortAfter reserve short line false)), shop)
    | some row =>
      (row.update c.txn (reservation reserve line)).map fun r =>
        (c.toStage (.reserving order lines todo (shortAfter reserve short line r.2)),
          { shop with inventory := shop.inventory.set line.sku r.1 })
  | .reserving order lines [] short => settle tax hexes shop c order lines short
  | .answered .. => none
  | .failed => none

/-- A statement raises. -/
def fail (shop : Shop) (c : Checkout) : Option (Checkout × Shop) :=
  match c.stage with
  | .answered .. => none
  | .failed => none
  | _ => some (c.toStage .failed, shop.release c.txn)

/-- What the request at a place does next. -/
inductive Move where
  | goOn (place : ℕ) (hexes : Hexes)
  | raises (place : ℕ)

def Move.place : Move → ℕ
  | .goOn place _ => place
  | .raises place => place

/-- One step of a shop with its requests. -/
def step (p : Pool Shop Checkout) : Move → Option (Pool Shop Checkout)
  | .goOn place hexes => p.step (next reserve tax hexes) place
  | .raises place => p.step fail place

/-! ### What a step can do -/

/-- What holds of the row that is held, and of the row that is read, holds of what is handed out. -/
theorem handOut_ind {P : Inventory → Prop} {held : Option (String × Inventory)} {sku : String}
    {read : Inventory} (hheld : ∀ row, held = some (sku, row) → P row) (hread : P read) :
    P (handOut held sku read) := by
  unfold handOut
  split
  case h_1 sku' row =>
    split_ifs with hsku
    · exact hheld row (by rw [hsku])
    · exact hread
  case h_2 => exact hread

/-- The steps of a checkout, by what they do to the shop. -/
inductive Takes (hexes : Hexes) (shop : Shop) (c : Checkout) : Checkout → Shop → Prop
  /-- The request is answered at once. -/
  | refused {status : ℕ} {payload : Value} (hstage : c.stage = .arrived) (hstatus : status = 401) :
      Takes hexes shop c (c.toStage (.answered status payload)) shop
  | known {user : User} (hstage : c.stage = .arrived) (huser : user ∈ shop.users)
      (hhandle : user.handle = c.handle) :
      Takes hexes shop c (c.toStage (.pricing user c.items none [] [])) shop
  | missed {user : User} {item : Item} {todo : List Item} {held : Option (String × Inventory)}
      {lines : List Line} {missing : List String}
      (hstage : c.stage = .pricing user (item :: todo) held lines missing)
      (hrow : shop.inventory.get? item.sku = none) :
      Takes hexes shop c (c.toStage (.pricing user todo none lines (missing ++ [item.sku]))) shop
  | priced {user : User} {item : Item} {todo : List Item} {held : Option (String × Inventory)}
      {lines : List Line} {missing : List String} {row : LockedRow ℕ Inventory} {seen : Inventory}
      (hstage : c.stage = .pricing user (item :: todo) held lines missing)
      (hrow : shop.inventory.get? item.sku = some row)
      (hseen : seen = handOut held item.sku (row.seenBy c.txn)) :
      Takes hexes shop c (c.toStage (.pricing user todo (some (item.sku, seen))
        (lines ++ [lineOf item seen]) missing)) shop
  | unknown {user : User} {held : Option (String × Inventory)} {lines : List Line}
      {missing : List String} {payload : Value}
      (hstage : c.stage = .pricing user [] held lines missing) (hmissing : missing ≠ []) :
      Takes hexes shop c (c.toStage (.answered 409 payload)) shop
  | inserted {user : User} {held : Option (String × Inventory)} {lines todo : List Line}
      {order : Order} {short : List String} (hstage : c.stage = .pricing user [] held lines [])
      (horder : order = orderOf tax hexes user lines) (hfree : shop.IsFree order.id)
      (hshort : short = shortBefore reserve lines)
      (htodo : todo = if short = [] then lines else []) :
      Takes hexes shop c (c.toStage (.reserving order lines todo short))
        { shop with inserting := shop.inserting ++ [(c.txn, order.id)] }
  /-- No row has the `sku` of the line. -/
  | gone {order : Order} {lines todo : List Line} {line : Line} {short : List String}
      (hstage : c.stage = .reserving order lines (line :: todo) short)
      (hrow : shop.inventory.get? line.sku = none) :
      Takes hexes shop c
        (c.toStage (.reserving order lines todo (shortAfter reserve short line false))) shop
  | unmatched {order : Order} {lines todo : List Line} {line : Line} {short : List String}
      {row : LockedRow ℕ Inventory}
      (hstage : c.stage = .reserving order lines (line :: todo) short)
      (hrow : shop.inventory.get? line.sku = some row)
      (hnone : reservation reserve line (row.seenBy c.txn) = none) :
      Takes hexes shop c
        (c.toStage (.reserving order lines todo (shortAfter reserve short line false)))
        { shop with inventory := shop.inventory.set line.sku row }
  | written {order : Order} {lines todo : List Line} {line : Line} {short : List String}
      {row : LockedRow ℕ Inventory} {v : Inventory}
      (hstage : c.stage = .reserving order lines (line :: todo) short)
      (hrow : shop.inventory.get? line.sku = some row)
      (hsome : reservation reserve line (row.seenBy c.txn) = some v)
      (hheld : ¬row.HeldByOther c.txn) :
      Takes hexes shop c (c.toStage (.reserving order lines todo short))
        { shop with inventory := shop.inventory.set line.sku (row.write c.txn v) }
  | outOfStock {order : Order} {lines : List Line} {short : List String} {payload : Value}
      (hstage : c.stage = .reserving order lines [] short) (hshort : short ≠ []) :
      Takes hexes shop c (c.toStage (.answered 409 payload)) (shop.release c.txn)
  | declined {order : Order} {lines : List Line} {payment : Payment}
      (hstage : c.stage = .reserving order lines [] [])
      (hpayment : payment = authorize hexes order.id order.totalCents c.token)
      (hfree : payment.id ∉ shop.payments.map Payment.id)
      (hdeclined : Declined order.totalCents c.token) :
      Takes hexes shop c (c.toStage (.answered 402 (declinedBody payment)))
        (shop.commit c.txn order (itemsOf order.id lines) payment)
  | confirmed {order : Order} {lines : List Line} {payment : Payment}
      (hstage : c.stage = .reserving order lines [] [])
      (hpayment : payment = authorize hexes order.id order.totalCents c.token)
      (hfree : payment.id ∉ shop.payments.map Payment.id)
      (hauthorized : ¬Declined order.totalCents c.token) :
      Takes hexes shop c (c.toStage (.answered 201 (confirmedBody tax lines payment)))
        (shop.commit c.txn { order with status := .confirmed } (itemsOf order.id lines) payment)

variable {reserve tax} {hexes : Hexes} {shop shop' : Shop} {c c' : Checkout}

theorem takes_of_settle {order : Order} {lines : List Line} {short : List String}
    (hstage : c.stage = .reserving order lines [] short)
    (h : settle tax hexes shop c order lines short = some (c', shop')) :
    Takes reserve tax hexes shop c c' shop' := by
  unfold settle at h
  dsimp only at h
  split_ifs at h with hshort hfree hdeclined
  · obtain ⟨rfl, rfl⟩ := Prod.mk.inj (Option.some.inj h)
    exact .outOfStock hstage hshort
  · obtain ⟨rfl, rfl⟩ := Prod.mk.inj (Option.some.inj h)
    obtain rfl : short = [] := not_not.mp hshort
    refine .declined hstage rfl hfree ?_
    simpa [authorize] using hdeclined
  · obtain ⟨rfl, rfl⟩ := Prod.mk.inj (Option.some.inj h)
    obtain rfl : short = [] := not_not.mp hshort
    refine .confirmed hstage rfl hfree ?_
    simpa [authorize] using hdeclined

/-- What a step does, by the stage it is taken in. -/
theorem takes_of_next (h : c.next reserve tax hexes shop = some (c', shop')) :
    Takes reserve tax hexes shop c c' shop' := by
  unfold next at h
  cases hstage : c.stage with
  | arrived =>
    -- the header, then the user it names
    simp only [hstage] at h
    split_ifs at h with hheader
    · obtain ⟨rfl, rfl⟩ := Prod.mk.inj (Option.some.inj h)
      exact .refused hstage rfl
    · cases huser : shop.users.find? fun user => user.handle = c.handle with
      | none =>
        rw [huser] at h
        obtain ⟨rfl, rfl⟩ := Prod.mk.inj (Option.some.inj h)
        exact .refused hstage rfl
      | some user =>
        rw [huser] at h
        obtain ⟨rfl, rfl⟩ := Prod.mk.inj (Option.some.inj h)
        exact .known hstage (List.mem_of_find?_eq_some huser)
          (by simpa using List.find?_some huser)
  | pricing user todo held lines missing =>
    cases todo with
    | nil =>
      -- everything is priced: the order is inserted, and `_reserve` looks for lines in short supply
      simp only [hstage] at h
      split_ifs at h with hmissing hfree hshort
      · obtain ⟨rfl, rfl⟩ := Prod.mk.inj (Option.some.inj h)
        exact .unknown hstage hmissing
      · obtain ⟨rfl, rfl⟩ := Prod.mk.inj (Option.some.inj h)
        obtain rfl : missing = [] := not_not.mp hmissing
        exact .inserted hstage rfl hfree rfl (if_pos hshort).symm
      · obtain ⟨rfl, rfl⟩ := Prod.mk.inj (Option.some.inj h)
        obtain rfl : missing = [] := not_not.mp hmissing
        exact .inserted hstage rfl hfree rfl (if_neg hshort).symm
    | cons item todo =>
      simp only [hstage] at h
      cases hrow : shop.inventory.get? item.sku with
      | none =>
        rw [hrow] at h
        obtain ⟨rfl, rfl⟩ := Prod.mk.inj (Option.some.inj h)
        exact .missed hstage hrow
      | some row =>
        rw [hrow] at h
        obtain ⟨rfl, rfl⟩ := Prod.mk.inj (Option.some.inj h)
        exact .priced hstage hrow rfl
  | reserving order lines todo short =>
    cases todo with
    | nil =>
      simp only [hstage] at h
      exact takes_of_settle hstage h
    | cons line todo =>
      simp only [hstage] at h
      cases hrow : shop.inventory.get? line.sku with
      | none =>
        rw [hrow] at h
        obtain ⟨rfl, rfl⟩ := Prod.mk.inj (Option.some.inj h)
        exact .gone hstage hrow
      | some row =>
        -- the `UPDATE` goes through unless another transaction has the row
        rw [hrow] at h
        obtain ⟨⟨row', matched⟩, hupdate, heq⟩ := Option.map_eq_some_iff.mp h
        obtain ⟨rfl, rfl⟩ := Prod.mk.inj heq
        rcases LockedRow.update_eq_some hupdate with
          ⟨hnone, rfl, rfl⟩ | ⟨v, hsome, hheld, rfl, rfl⟩
        · exact .unmatched hstage hrow hnone
        · have hshort : shortAfter reserve short line true = short := if_neg (by simp)
          simp only [hshort]
          exact .written hstage hrow hsome hheld
  | answered status payload =>
    simp only [hstage] at h
    cases h
  | failed =>
    simp only [hstage] at h
    cases h

/-- A statement that raises rolls back. -/
theorem eq_of_fail (h : c.fail shop = some (c', shop')) :
    c' = c.toStage .failed ∧ shop' = shop.release c.txn := by
  unfold fail at h
  split at h
  · cases h
  · cases h
  · obtain ⟨rfl, rfl⟩ := Prod.mk.inj (Option.some.inj h)
    exact ⟨rfl, rfl⟩

end Steps

end Checkout

end InfraReplay.DemoShop
