import InfraReplay.Plugins.MockCapture

/-!
# The two canonical checkouts

The steps of the fixture recordings of the mock plugin: a checkout whose payment goes through, and
one whose card is declined. Both go through the same steps; the payloads differ from the payment on.
Durations are the nanoseconds that `int(ms * _MS)` gives for the literals of the source.
-/

namespace InfraReplay

open Python

/-- `Scenario`. -/
inductive Scenario where
  | clean
  | buggy
  deriving DecidableEq

namespace Scenario

/-- The stored form of a scenario. -/
def value : Scenario → String
  | clean => "clean"
  | buggy => "buggy"

/-- `Scenario(value)`. -/
def ofValue (value : String) : Except Error Scenario :=
  if value = clean.value then .ok clean
  else if value = buggy.value then .ok buggy
  else .error (.valueError (quoted value ++ " is not a valid Scenario"))

@[simp]
theorem ofValue_value (scenario : Scenario) : ofValue scenario.value = .ok scenario := by
  cases scenario with
  | clean => rfl
  | buggy => rfl

end Scenario

namespace Fixtures

/-! ### Payloads -/

/-- `ORDER_ID`. -/
def orderId : String := "ord_9f2c1a7b3e00"

/-- `USER_ID`. -/
def userId : String := "usr_4a1c8e"

/-- `CUSTOMER_EMAIL`. -/
def customerEmail : String := "dana.lang@example.com"

/-- `PAYMENT_REF`. -/
def paymentRef : String := "pi_3Qx8Zk2eRfL0aQ"

/-- `PAYMENT_ROW_ID`. -/
def paymentRowId : String := "pay_2b9c07d1"

/-- An entry of `_LINE_ITEMS`. -/
structure LineItem where
  sku : String
  name : String
  qty : ℤ
  unitCents : ℤ

/-- `_LINE_ITEMS[0]`. -/
def aeropress : LineItem := ⟨"AEROPRESS-GO", "AeroPress Go", 1, 3999⟩

/-- `_LINE_ITEMS[1]`. -/
def filters : LineItem := ⟨"FILTER-350", "Micro-filters (350 pack)", 2, 899⟩

/-- `_LINE_ITEMS`. -/
def lineItems : List LineItem := [aeropress, filters]

/-- `_SUBTOTAL_CENTS`. -/
def subtotalCents : ℤ := lineItems.foldl (fun total item => total + item.qty * item.unitCents) 0

/-- `_SHIPPING_CENTS`. -/
def shippingCents : ℤ := 500

/-- `_TAX_CENTS`. -/
def taxCents : ℤ := 491

/-- `_TOTAL_CENTS`. -/
def totalCents : ℤ := subtotalCents + shippingCents + taxCents

/-- `_request_payload`. -/
def requestPayload : Payload where
  items := [
    ("method", .str "POST"),
    ("path", .str "/api/v1/checkout"),
    ("http_version", .str "1.1"),
    ("client_ip", .str "203.0.113.42"),
    ("headers", .dict [
      ("host", .str "shop.demo.internal"),
      ("content-type", .str "application/json"),
      ("accept", .str "application/json"),
      ("user-agent", .str "DemoShop-Web/2.14.0 (+https://demo.shop)"),
      ("x-request-id", .str "req_a3f9c2b1e8d7"),
      ("idempotency-key", .str "chk_2026-08-29_dana_01"),
      ("authorization", .str "Bearer eyJhbGciOiJIUzI1NiJ9.checkout.redact-me"),
      ("cookie", .str "session=redact-me; ab_group=B")]),
    ("query", .dict []),
    ("body", .dict [
      ("cart_id", .str "cart_7b21f0"),
      ("items", .list (lineItems.map fun item =>
        .dict [("sku", .str item.sku), ("qty", .int item.qty)])),
      ("shipping_address", .dict [
        ("name", .str "Dana Lang"),
        ("line1", .str "18 Harbour View"),
        ("city", .str "Bristol"),
        ("postcode", .str "BS1 4RN"),
        ("country", .str "GB")]),
      ("payment_method", .dict [
        ("type", .str "card"),
        ("token", .str "tok_live_x2Kd9pQ"),
        ("brand", .str "visa"),
        ("last4", .str "4242")])])]
  wf := by decide

/-- `{"rows_affected": count, "rows": rows}`. -/
def resultPayload (count : ℤ) (rows : Json) : Payload :=
  .ofEntries [("rows_affected", .ofInt count), ("rows", rows)] (by simp)

/-- The row of `_payment_result`. -/
def paymentRow (scenario : Scenario) : Json :=
  match scenario with
  | .clean => {
      val := .dict [
        ("id", .str paymentRowId),
        ("order_id", .str orderId),
        ("state", .str "authorized"),
        ("provider", .str "stripe"),
        ("amount_cents", .int totalCents),
        ("provider_ref", .str paymentRef)]
      wf := by decide }
  | .buggy => {
      val := .dict [
        ("id", .str paymentRowId),
        ("order_id", .str orderId),
        ("state", .str "declined"),
        ("provider", .str "stripe"),
        ("amount_cents", .int totalCents),
        ("decline_code", .str "insufficient_funds")]
      wf := by decide }

/-- A list of one JSON value. -/
def singleRow (row : Json) : Json :=
  ⟨.list [row.val], Value.wf_list.mpr fun _ h => List.mem_singleton.mp h ▸ row.wf⟩

/-- `_payment_result`. -/
def paymentResult (scenario : Scenario) : Payload :=
  resultPayload 1 (singleRow (paymentRow scenario))

/-- `_response_payload`. -/
def responsePayload (scenario : Scenario) : Payload :=
  match scenario with
  | .clean => {
      items := [
        ("status", .int 201),
        ("headers", .dict [
          ("content-type", .str "application/json"),
          ("location", .str ("/api/v1/orders/" ++ orderId))]),
        ("body", .dict [
          ("order_id", .str orderId),
          ("status", .str "confirmed"),
          ("currency", .str "GBP"),
          ("totals", .dict [
            ("subtotal_cents", .int subtotalCents),
            ("shipping_cents", .int shippingCents),
            ("tax_cents", .int taxCents),
            ("grand_total_cents", .int totalCents)]),
          ("payment", .dict [
            ("state", .str "authorized"),
            ("provider", .str "stripe"),
            ("reference", .str paymentRef)]),
          ("fulfilment", .dict [("carrier", .str "royal-mail"), ("eta_days", .int 3)]),
          ("line_items", .list (lineItems.map fun item =>
            .dict [
              ("sku", .str item.sku),
              ("name", .str item.name),
              ("qty", .int item.qty),
              ("unit_cents", .int item.unitCents)]))])]
      wf := by decide }
  | .buggy => {
      items := [
        ("status", .int 402),
        ("headers", .dict [("content-type", .str "application/problem+json")]),
        ("body", .dict [
          ("type", .str "https://demo.shop/errors/payment-declined"),
          ("title", .str "Payment was declined"),
          ("status", .int 402),
          ("order_id", .str orderId),
          ("payment", .dict [
            ("state", .str "declined"),
            ("provider", .str "stripe"),
            ("decline_code", .str "insufficient_funds")]),
          ("hint", .str "Ask the customer to try a different card.")])]
      wf := by decide }

/-! ### Steps -/

/-- `{"sql": sql, "params": params}`. -/
def queryPayload (sql : String) (params : Json) : Payload :=
  .ofEntries [("sql", .ofString sql), ("params", params)] (by simp)

/-- `_pg_step`, where the query stands at `place` and the request at `0`. -/
def pgStep (place : ℕ) (sql : String) (params : Json) (result : Payload) (gapNs queryNs : ℤ) :
    List StreamStep :=
  [{ eventType := .pgQuery
     payload := queryPayload sql params
     parent := some 0
     gapNs := gapNs
     durNs := queryNs },
   { eventType := .pgResult
     payload := result
     parent := some place
     gapNs := 0
     durNs := 400000 }]

/-- The steps of `build`. -/
def steps (scenario : Scenario) : List StreamStep :=
  [{ eventType := .httpRequest, payload := requestPayload, gapNs := 0, durNs := 141000000 }] ++
  pgStep 1
    ("SELECT s.user_id, u.email, u.loyalty_tier\n" ++
      "  FROM sessions s JOIN users u ON u.id = s.user_id\n" ++
      " WHERE s.token_hash = $1 AND s.expires_at > now()")
    ⟨.list [.str "sha256:9c1f0b…a7"], by decide⟩
    (resultPayload 1
      ⟨.list [.dict [
        ("user_id", .str userId),
        ("email", .str customerEmail),
        ("loyalty_tier", .str "gold")]], by decide⟩)
    3000000 4000000 ++
  [{ eventType := .pgQuery
     payload := queryPayload "BEGIN" ⟨.list [], by decide⟩
     parent := some 0
     gapNs := 1000000
     durNs := 300000 }] ++
  pgStep 4
    ("INSERT INTO orders (id, user_id, currency, subtotal_cents,\n" ++
      "                    shipping_cents, tax_cents, total_cents, status)\n" ++
      "VALUES ($1, $2, 'GBP', $3, $4, $5, $6, 'pending')")
    ⟨.list [.str orderId, .str userId, .int subtotalCents, .int shippingCents, .int taxCents,
      .int totalCents], by decide⟩
    (resultPayload 1
      ⟨.list [.dict [("id", .str orderId), ("status", .str "pending")]], by decide⟩)
    1000000 8000000 ++
  pgStep 6
    ("INSERT INTO order_items (order_id, sku, qty, unit_cents)\n" ++
      "VALUES ($1, $2, $3, $4), ($1, $5, $6, $7)")
    ⟨.list [.str orderId, .str aeropress.sku, .int aeropress.qty, .int aeropress.unitCents,
      .str filters.sku, .int filters.qty, .int filters.unitCents], by decide⟩
    (resultPayload 2 ⟨.list [], by decide⟩)
    1000000 6000000 ++
  pgStep 8
    ("UPDATE inventory SET available = available - c.qty\n" ++
      "  FROM (VALUES ($1::text, $2), ($3::text, $4)) AS c(sku, qty)\n" ++
      " WHERE inventory.sku = c.sku")
    ⟨.list [.str aeropress.sku, .int aeropress.qty, .str filters.sku, .int filters.qty],
      by decide⟩
    (resultPayload 2 ⟨.list [], by decide⟩)
    1000000 7000000 ++
  pgStep 10
    ("INSERT INTO payments (id, order_id, provider, amount_cents, state)\n" ++
      "VALUES ($1, $2, 'stripe', $3, $4)\n" ++
      "RETURNING id, order_id, state, provider, amount_cents")
    ⟨.list [.str paymentRowId, .str orderId, .int totalCents,
      .str (if scenario = .clean then "authorized" else "declined")], rfl⟩
    (paymentResult scenario)
    2000000 53000000 ++
  [{ eventType := .pgQuery
     payload := queryPayload (if scenario = .clean then "COMMIT" else "ROLLBACK")
       ⟨.list [], by decide⟩
     parent := some 0
     gapNs := 1000000
     durNs := if scenario = .clean then 2500000 else 600000 },
   { eventType := .httpResponse
     payload := responsePayload scenario
     parent := some 0
     gapNs := 2000000
     durNs := 1000000 }]

end Fixtures

end InfraReplay
