import InfraReplay.DemoShop.Books

/-!
# The race that the shop is there to show

When stock is read and written back, nothing goes wrong as long as a checkout runs alone
(`stock_of_serial_run`): what it has read is still there when it writes. Sent at once, any number
of requests can all be sold the same unit (`exists_race`).
-/

namespace InfraReplay.DemoShop

open Python

namespace Checkout

/-! ### One at a time -/

/-- The request has not begun, or is over. -/
def Idle (c : Checkout) : Prop :=
  match c.stage with
  | .pricing .. => False
  | .reserving .. => False
  | _ => True

/-- No other request is under way. -/
def Alone (p : Pool Shop Checkout) (move : Move) : Prop :=
  ∀ c ∈ p.tasks[move.place]?, ∀ u ∈ p.tasks, u.txn ≠ c.txn → u.Idle

instance (c : Checkout) : Decidable c.Idle :=
  match h : c.stage with
  | .arrived | .answered .. | .failed => isTrue (by rw [Idle, h]; trivial)
  | .pricing .. | .reserving .. => isFalse (by rw [Idle, h]; exact id)

instance (p : Pool Shop Checkout) (move : Move) : Decidable (Alone p move) := by
  unfold Alone
  infer_instance

/-- The transaction still sees so many of an article. -/
def Sees (shop : Shop) (txn : ℕ) (sku : String) (available : ℤ) : Prop :=
  ∀ row, shop.inventory.get? sku = some row → available = (row.seenBy txn).available

/-- What the checkout has read is what is there, and no article comes up twice. -/
def UpToDate (shop : Shop) (c : Checkout) : Prop :=
  (c.items.map Item.sku).Nodup ∧
    match c.stage with
    | .pricing _ todo held lines _ =>
      (∀ sku row, held = some (sku, row) → Sees shop c.txn sku row.available) ∧
        (∀ line ∈ lines, Sees shop c.txn line.sku line.availableSeen) ∧
          (lines.map Line.sku ++ todo.map Item.sku).Nodup
    | .reserving _ _ todo _ =>
      (∀ line ∈ todo, Sees shop c.txn line.sku line.availableSeen) ∧ (todo.map Line.sku).Nodup
    | _ => True

variable {reserve : Reserve} {tax : ℤ → ℤ} {hexes : Hexes} {shop₀ shop shop' : Shop}
  {c c' u : Checkout} {requests : List Checkout} {moves : List Move} {p p' : Pool Shop Checkout}

/-- Writing one article changes no other. -/
theorem Sees.set {sku sku' : String} {row : LockedRow ℕ Inventory} {txn : ℕ} {available : ℤ}
    (h : Sees shop txn sku' available) (hne : sku ≠ sku') :
    Sees { shop with inventory := shop.inventory.set sku row } txn sku' available := by
  intro row' hrow'
  rcases Shop.get?_set_cases hrow' with ⟨heq, -⟩ | ⟨-, hkept⟩
  · exact absurd heq hne
  · exact h row' hkept

/-- A transaction sees the row that it writes. -/
theorem Sees.set_self {sku sku' : String} {row : LockedRow ℕ Inventory} {txn : ℕ} {available : ℤ}
    (h : Sees shop txn sku' available) (hrow : shop.inventory.get? sku = some row) :
    Sees { shop with inventory := shop.inventory.set sku row } txn sku' available := by
  intro row' hrow'
  rcases Shop.get?_set_cases hrow' with ⟨rfl, rfl⟩ | ⟨-, hkept⟩
  · exact h row hrow
  · exact h row' hkept

/-- A checkout that runs alone stays up to date. -/
theorem UpToDate.takes (h : c.UpToDate shop) (ht : Takes reserve tax hexes shop c c' shop') :
    c'.UpToDate shop' := by
  obtain ⟨hitems, h⟩ := h
  refine ⟨by rwa [items_of_takes ht], ?_⟩
  cases ht with
  | refused | unknown | outOfStock | declined | confirmed => trivial
  | known => exact ⟨by simp, by simp, hitems⟩
  | missed hstage =>
    rw [hstage] at h
    obtain ⟨-, hlines, hnd⟩ := h
    exact ⟨nofun, hlines, hnd.sublist ((List.Sublist.refl _).append (List.sublist_cons_self _ _))⟩
  | @priced user item todo held lines missing row seen hstage hrow hseen =>
    rw [hstage] at h
    obtain ⟨hheld, hlines, hnd⟩ := h
    -- what is held was read before, and is still what is there
    have hsees : Sees shop c.txn item.sku seen.available := by
      rw [hseen]
      refine handOut_ind (P := fun row => Sees shop c.txn item.sku row.available)
        (hheld item.sku) fun row' hrow' => ?_
      rw [Option.some.inj (hrow.symm.trans hrow')]
    refine ⟨fun sku row' hheld' => ?_, List.forall_mem_concat hlines hsees, ?_⟩
    · obtain ⟨rfl, rfl⟩ := Prod.mk.inj (Option.some.inj hheld')
      exact hsees
    · rw [List.map_append, List.append_assoc]
      exact hnd
  | @inserted user held lines todo order short hstage horder hfree hshort htodo =>
    rw [hstage] at h
    obtain ⟨-, hlines, hnd⟩ := h
    rw [List.map_nil, List.append_nil] at hnd
    rw [toStage, htodo]
    split_ifs
    · exact ⟨hlines, hnd⟩
    · exact ⟨by simp, by simp⟩
  | gone hstage hrow =>
    rw [hstage] at h
    exact ⟨fun line hline => h.1 line (List.mem_cons_of_mem _ hline), (List.nodup_cons.mp h.2).2⟩
  | unmatched hstage hrow =>
    rw [hstage] at h
    exact ⟨fun line hline => (h.1 line (List.mem_cons_of_mem _ hline)).set_self hrow,
      (List.nodup_cons.mp h.2).2⟩
  | @written order lines todo line short row v hstage hrow hsome hheld =>
    rw [hstage] at h
    obtain ⟨hlines, hnd⟩ := h
    obtain ⟨hnot, hnd⟩ := List.nodup_cons.mp hnd
    refine ⟨fun line' hline' => (hlines line' (List.mem_cons_of_mem _ hline')).set ?_, hnd⟩
    -- the article that is written does not come up again
    rintro heq
    exact hnot (List.mem_map.mpr ⟨line', hline', heq.symm⟩)

/-- A checkout that is not running is up to date in any shop. -/
theorem UpToDate.of_idle (h : u.UpToDate shop) (hidle : u.Idle) : u.UpToDate shop' := by
  refine ⟨h.1, ?_⟩
  unfold Idle at hidle
  split at hidle
  · exact hidle.elim
  · exact hidle.elim
  · trivial

/-- What is up to date was read fresh. -/
theorem UpToDate.fresh (h : c.UpToDate shop) : c.Fresh shop := by
  obtain ⟨-, h⟩ := h
  unfold Fresh
  split
  · rename_i order lines line todo short hstage
    rw [hstage] at h
    exact fun row hrow => h.1 line List.mem_cons_self row hrow
  · trivial

/-- Along a run in which no two requests are under way at once, every write is fresh. -/
theorem along_writesFresh (hopened : Opened shop₀ requests)
    (hdistinct : ∀ c ∈ requests, (c.items.map Item.sku).Nodup)
    (halone : Machine.Along (step reserve tax) Alone ⟨shop₀, requests⟩ moves) :
    Machine.Along (step reserve tax) (WritesFresh reserve) ⟨shop₀, requests⟩ moves := by
  have hinit : Pool.Inv (fun _ => True) (fun shop c => c.UpToDate shop) (fun c u => c.txn ≠ u.txn)
      ⟨shop₀, requests⟩ :=
    ⟨trivial, fun c hc => ⟨hdistinct c hc, by rw [hopened.arrived c hc]; trivial⟩, hopened.txns⟩
  refine Machine.Along.of_invariant (fun q move q' hinv hok hstep => ?_)
    (fun q move hinv _ _ c hc => (hinv.own c (List.mem_of_getElem? hc)).fresh) hinit halone
  -- while one request is under way, what the others have read does not matter
  refine inv_step hinv hstep (fun c c' shop' hexes hc ht => ?_) fun c hc => ?_
  · refine ⟨trivial, (hinv.own c (List.mem_of_getElem? hc)).takes ht, fun u hmem hu hne => ?_⟩
    exact hu.of_idle (hok c hc u hmem hne)
  · refine ⟨trivial, ⟨(hinv.own c (List.mem_of_getElem? hc)).1, trivial⟩, fun u hmem hu hne => ?_⟩
    exact hu.of_idle (hok c hc u hmem hne)

/-- **One at a time, nothing is lost.** When no two requests are under way at once and no request
names an article twice, then in either mode, with any statements raising, what is left of an
article and what the stored orders hold of it add up to what there was, and neither is oversold. -/
theorem stock_of_serial_run (hopened : Opened shop₀ requests) (hstock : InStock shop₀)
    (hdistinct : ∀ c ∈ requests, (c.items.map Item.sku).Nodup)
    (halone : Machine.Along (step reserve tax) Alone ⟨shop₀, requests⟩ moves)
    (hrun : Machine.run (step reserve tax) ⟨shop₀, requests⟩ moves = some p) {sku : String}
    {row₀ : LockedRow ℕ Inventory} (hrow₀ : shop₀.inventory.get? sku = some row₀) :
    ∃ row, p.state.inventory.get? sku = some row ∧ 0 ≤ row.committed.available ∧
      row.committed.available + sold sku p.state.orderItems =
        row₀.committed.available + sold sku shop₀.orderItems := by
  have hfresh := along_writesFresh hopened hdistinct halone
  obtain ⟨row, hrow, hsum⟩ := balanced_of_run hopened hfresh hrun sku row₀ hrow₀
  exact ⟨row, hrow, (inStock_of_run hopened hstock hrun sku row hrow).1, hsum⟩

/-- Two requests, the second one after the first one is answered. -/
def inTurn : List Move :=
  [.goOn 0 {}, .goOn 0 {}, .goOn 0 { order := "1" }, .goOn 0 {}, .goOn 0 { payment := "1" },
    .goOn 1 {}, .goOn 1 {}, .goOn 1 { order := "2" }, .goOn 1 {}, .goOn 1 { payment := "2" }]

theorem stock_of_serial_run_inTurn :
    ∃ p, Machine.run (step .readThenWrite fun _ => 0) ⟨smallShop 2, singleUnits 2⟩ inTurn = some p ∧
      confirmedOrders p.state = 2 ∧
      ∃ row, p.state.inventory.get? "FILTER-350" = some row ∧ 0 ≤ row.committed.available ∧
        row.committed.available + sold "FILTER-350" p.state.orderItems = 2 + 0 := by
  have hrun : (Machine.run (step .readThenWrite fun _ => 0) ⟨smallShop 2, singleUnits 2⟩
      inTurn).map (fun q => confirmedOrders q.state) = some 2 := by decide
  obtain ⟨p, hp, hconfirmed⟩ := Option.map_eq_some_iff.mp hrun
  have hrow₀ : (smallShop 2).inventory.get? "FILTER-350" = some _ := rfl
  refine ⟨p, hp, hconfirmed, stock_of_serial_run (opened_singleUnits 2 2)
    (inStock_smallShop (by decide)) ?_ (by decide) hp hrow₀⟩
  intro c hc
  obtain ⟨i, -, rfl⟩ := List.mem_map.mp hc
  simp

/-! ### All at once -/

/-- The article, of which there are so many. -/
def filters (available : ℤ) : Inventory :=
  { name := "Micro-filters (350 pack)", unitCents := 899, available := available }

/-- The shop after the first `n` sales, with so many of its one article. -/
structure Raced (available : ℤ) (n : ℕ) (hex : ℕ → String) (shop : Shop) : Prop where
  inventory : shop.inventory = [("FILTER-350", { committed := filters available })]
  inserting : shop.inserting = []
  orders : shop.orders.map Order.id = (List.range n).map fun i => "ord_" ++ hex i
  payments : shop.payments.map Payment.id = (List.range n).map fun i => "pay_" ++ hex i
  confirmed : confirmedOrders shop = n
  sold : DemoShop.sold "FILTER-350" shop.orderItems = n

/-- The line of a request for one unit that has read `available`. -/
def singleLine (available : ℤ) : Line where
  sku := "FILTER-350"
  name := "Micro-filters (350 pack)"
  qty := 1
  unitCents := 899
  availableSeen := available

/-- A run in which a checkout goes on. -/
theorem run_goOn {tasks : List Checkout} {place : ℕ} {ms : List Move} (hc : tasks[place]? = some c)
    (hnext : c.next reserve tax hexes shop = some (c', shop')) :
    Machine.run (step reserve tax) ⟨shop, tasks⟩ (.goOn place hexes :: ms) =
      Machine.run (step reserve tax) ⟨shop', tasks.set place c'⟩ ms := by
  have hstep : step reserve tax ⟨shop, tasks⟩ (.goOn place hexes) =
      some ⟨shop', tasks.set place c'⟩ := Pool.step_eq_some_iff.mpr ⟨c, c', shop', hc, hnext, rfl⟩
  rw [Machine.run, hstep, Option.bind_some]

/-- The `i`-th request for one unit. -/
def single (i : ℕ) : Checkout where
  txn := i
  handle := "dana"
  items := [{ sku := "FILTER-350" }]
  token := "tok_visa"

def dana : User := { id := "usr_4a1c8e", handle := "dana" }

/-- The stage of a request that has read `available`. -/
def priced (available : ℤ) : Stage :=
  .pricing dana [] (some ("FILTER-350", filters available)) [singleLine available] []

/-- The order of the `i`-th request. -/
def orderAt (tax : ℤ → ℤ) (available : ℤ) (hex : ℕ → String) (i : ℕ) : Order :=
  orderOf tax { order := hex i } dana [singleLine available]

variable {hex : ℕ → String} {available : ℤ} {i n : ℕ} {tasks : List Checkout}

/-- The buyer is found. -/
theorem next_single (husers : shop.users = [dana]) :
    (single i).next reserve tax {} shop =
      some ((single i).toStage (.pricing dana [{ sku := "FILTER-350" }] none [] []), shop) := by
  simp [next, single, toStage, husers, dana]

/-- The line is read and priced. -/
theorem next_priced (hinventory : shop.inventory = (smallShop available).inventory) :
    ((single i).toStage (.pricing dana [{ sku := "FILTER-350" }] none [] [])).next reserve tax {}
        shop =
      some ((single i).toStage (priced available), shop) := by
  simp [next, single, toStage, hinventory, smallShop, Dict.get?_cons, handOut, LockedRow.seenBy,
    singleLine, lineOf, filters, priced]

/-- A request reads the article. -/
theorem run_single (hc : tasks[i]? = some (single i)) :
    Machine.run (step .readThenWrite tax) ⟨smallShop available, tasks⟩
        [.goOn i {}, .goOn i {}] =
      some ⟨smallShop available, tasks.set i ((single i).toStage (priced available))⟩ := by
  have hi : i < tasks.length := (List.getElem?_eq_some_iff.mp hc).1
  have hpriced : ((single i).toStage (.pricing dana [{ sku := "FILTER-350" }] none [] [])).next
      .readThenWrite tax {} (smallShop available) = some (_, smallShop available) := next_priced rfl
  rw [run_goOn hc (next_single rfl), run_goOn (List.getElem?_set_self hi) hpriced, List.set_set]
  rfl

/-- What the stock is after the first `n` requests that have read `available` are through. -/
def leftAfter (available : ℤ) (n : ℕ) : ℤ := if n = 0 then available else available - 1

/-- A name of the `i`-th request is not among those of the requests before. -/
theorem notMem_of_injective (hhex : Function.Injective hex) (stem : String) :
    stem ++ hex i ∉ (List.range i).map fun j => stem ++ hex j := by
  intro hmem
  obtain ⟨j, hj, hid⟩ := List.mem_map.mp hmem
  obtain rfl : j = i := hhex ((String.append_right_inj _).mp hid)
  exact absurd (List.mem_range.mp hj) (lt_irrefl j)

/-- The order, its item and its payment are inserted. -/
theorem next_inserted (hhex : Function.Injective hex) (hstock : 1 ≤ available)
    (h : Raced (leftAfter available i) i hex shop) :
    ((single i).toStage (priced available)).next .readThenWrite tax { order := hex i } shop =
      some ((single i).toStage (.reserving (orderAt tax available hex i) [singleLine available]
        [singleLine available] []),
        { shop with inserting := [(i, (orderAt tax available hex i).id)] }) := by
  have hfree : shop.IsFree ("ord_" ++ hex i) := by
    refine ⟨?_, by simp [h.inserting]⟩
    rw [h.orders]
    exact notMem_of_injective hhex "ord_"
  have hshort : shortBefore .readThenWrite [singleLine available] = [] := by
    simp [shortBefore, singleLine, hstock]
  simp only [next, toStage, priced, ne_eq, not_true_eq_false, if_false, orderOf, hfree, if_true,
    hshort, orderAt, h.inserting]
  rfl

/-- An `UPDATE` that finds its row. -/
theorem next_update {order : Order} {lines todo : List Line} {line : Line} {short : List String}
    {row row' : LockedRow ℕ Inventory} {matched : Bool}
    (hstage : c.stage = .reserving order lines (line :: todo) short)
    (hrow : shop.inventory.get? line.sku = some row)
    (hupdate : row.update c.txn (reservation reserve line) = some (row', matched)) :
    c.next reserve tax hexes shop =
      some (c.toStage (.reserving order lines todo (shortAfter reserve short line matched)),
        { shop with inventory := shop.inventory.set line.sku row' }) := by
  simp only [next, hstage, hrow, hupdate, Option.map_some]

/-- The last step of a checkout whose lines are all reserved and whose payment goes through. -/
theorem next_confirmed {order : Order} {lines : List Line}
    (hstage : c.stage = .reserving order lines [] [])
    (hfree : "pay_" ++ hexes.payment ∉ shop.payments.map Payment.id)
    (hauthorized : ¬Declined order.totalCents c.token) :
    c.next reserve tax hexes shop =
      some (c.toStage (.answered 201
          (confirmedBody tax lines (authorize hexes order.id order.totalCents c.token))),
        shop.commit c.txn { order with status := .confirmed } (itemsOf order.id lines)
          (authorize hexes order.id order.totalCents c.token)) := by
  have hid : (authorize hexes order.id order.totalCents c.token).id ∉
      shop.payments.map Payment.id := hfree
  have hstate : (authorize hexes order.id order.totalCents c.token).state ≠ .declined := by
    simp [authorize, hauthorized]
  simp only [next, hstage, settle, ne_eq, not_true_eq_false, if_false, hid, hstate]

/-- A request that has read the article orders it, writes it back and is confirmed. -/
theorem run_priced (hhex : Function.Injective hex) (hstock : 1 ≤ available)
    (hauthorized : ¬Declined (totalOf tax [singleLine available]) "tok_visa")
    (h : Raced (leftAfter available i) i hex shop)
    (hc : tasks[i]? = some ((single i).toStage (priced available))) :
    ∃ shop' payload,
      Machine.run (step .readThenWrite tax) ⟨shop, tasks⟩
          [.goOn i { order := hex i }, .goOn i {}, .goOn i { payment := hex i }] =
        some ⟨shop', tasks.set i ((single i).toStage (.answered 201 payload))⟩ ∧
      Raced (leftAfter available (i + 1)) (i + 1) hex shop' := by
  have hi : i < tasks.length := (List.getElem?_eq_some_iff.mp hc).1
  have hrow : shop.inventory.get? "FILTER-350" =
      some { committed := filters (leftAfter available i) } := by
    rw [h.inventory]
    rfl
  have hupdate : (LockedRow.mk (filters (leftAfter available i)) none).update i
      (reservation .readThenWrite (singleLine available)) = some (_, true) :=
    LockedRow.update_of_free (by simp [LockedRow.HeldByOther]) rfl
  have hfree : "pay_" ++ hex i ∉ shop.payments.map Payment.id := by
    rw [h.payments]
    exact notMem_of_injective hhex "pay_"
  have hwrite : ((single i).toStage (.reserving (orderAt tax available hex i)
      [singleLine available] [singleLine available] [])).next .readThenWrite tax {}
      { shop with inserting := [(i, (orderAt tax available hex i).id)] } = some (_, _) :=
    next_update rfl hrow hupdate
  -- the three statements, one after the other
  rw [run_goOn hc (next_inserted hhex hstock h), run_goOn (List.getElem?_set_self hi) hwrite,
    List.set_set, run_goOn (List.getElem?_set_self hi) (next_confirmed rfl hfree hauthorized),
    List.set_set]
  have hleft : leftAfter available (i + 1) = available - 1 := if_neg (Nat.succ_ne_zero i)
  refine ⟨_, _, rfl, ?_, ?_, ?_, ?_, ?_, ?_⟩
  · rw [hleft]
    simp [Shop.commit, h.inventory, Dict.set, LockedRow.seenBy, singleLine, filters, single]
  · simp [Shop.commit, single]
  · rw [Shop.commit, List.map_append, h.orders, List.range_succ, List.map_append]
    rfl
  · rw [Shop.commit, List.map_append, h.payments, List.range_succ, List.map_append]
    rfl
  · rw [Shop.commit, confirmedOrders, List.countP_append]
    exact congrArg (· + 1) h.confirmed
  · rw [Shop.commit, sold_append, h.sold]
    simp [sold_itemsOf, ordered, singleLine]

/-- Names that are made up: `"a"` so many times. -/
def madeUp (i : ℕ) : String := String.ofList (List.replicate i 'a')

/-- No made-up id is given out twice. -/
theorem madeUp_injective : Function.Injective madeUp := by
  intro i j h
  have hlength := congrArg String.length h
  simpa [madeUp] using hlength

/-- All requests read the article; then each of them orders it, writes it back and commits, one
after the other. -/
def allAtOnce (n : ℕ) : List Move :=
  ((List.range n).flatMap fun i => [.goOn i {}, .goOn i {}]) ++
    (List.range n).flatMap fun i =>
      [.goOn i { order := madeUp i }, .goOn i {}, .goOn i { payment := madeUp i }]

/-- **The race.** When stock is read and written back, then any number of requests for one unit
each, sent at once to a shop that has some, can all be confirmed, and the shop counts one unit
less. -/
theorem race_of_readThenWrite (n : ℕ) (hstock : 1 ≤ available)
    (hauthorized : ¬Declined (totalOf tax [singleLine available]) "tok_visa") :
    ∃ p, Machine.run (step .readThenWrite tax) ⟨smallShop available, singleUnits n⟩
        (allAtOnce n) = some p ∧
      (∀ c ∈ p.tasks, ∃ payload, c.stage = .answered 201 payload) ∧
      confirmedOrders p.state = n ∧ sold "FILTER-350" p.state.orderItems = n ∧
      stockLeft p.state = leftAfter available n := by
  have hsingle : ∀ i < n, ∃ c, (singleUnits n)[i]? = some c ∧ c = single i :=
    fun i hi => ⟨single i, by simp [singleUnits, hi, single], rfl⟩
  -- every request reads the article
  obtain ⟨s₁, tasks₁, hrun₁, rfl, hlength₁, hpriced⟩ := Pool.exists_run_round
    (step .readThenWrite tax) (fun _ shop => shop = smallShop available) (fun i c => c = single i)
    (fun i c => c = (single i).toStage (priced available)) (fun i => [.goOn i {}, .goOn i {}]) n
    (fun i _ shop tasks c hshop hc hsingle => by
      subst hshop hsingle
      exact ⟨_, _, run_single hc, rfl, rfl⟩)
    rfl hsingle
  -- and then writes back what it has read
  have hraced : Raced (leftAfter available 0) 0 madeUp (smallShop available) :=
    ⟨rfl, rfl, rfl, rfl, rfl, rfl⟩
  obtain ⟨s₂, tasks₂, hrun₂, hend, hlength₂, hanswered⟩ := Pool.exists_run_round
    (step .readThenWrite tax) (fun i shop => Raced (leftAfter available i) i madeUp shop)
    (fun i c => c = (single i).toStage (priced available))
    (fun _ c => ∃ payload, c.stage = .answered 201 payload)
    (fun i => [.goOn i { order := madeUp i }, .goOn i {}, .goOn i { payment := madeUp i }]) n
    (fun i _ shop tasks c hshop hc hpriced => by
      subst hpriced
      obtain ⟨shop', payload, hrun, hnext⟩ :=
        run_priced madeUp_injective hstock hauthorized hshop hc
      exact ⟨shop', _, hrun, hnext, payload, rfl⟩)
    hraced hpriced
  refine ⟨⟨s₂, tasks₂⟩, ?_, fun c hc => ?_, hend.confirmed, hend.sold, ?_⟩
  · rw [allAtOnce, Machine.run_append hrun₁, hrun₂]
  · obtain ⟨i, hi⟩ := List.mem_iff_getElem?.mp hc
    have hlt : i < n := by
      have hlt := (List.getElem?_eq_some_iff.mp hi).1
      simpa [hlength₂, hlength₁, singleUnits] using hlt
    obtain ⟨c', hc', hanswer⟩ := hanswered i hlt
    obtain rfl : c = c' := Option.some.inj (hi.symm.trans hc')
    exact hanswer
  · rw [stockLeft, hend.inventory]
    simp [filters]

theorem race_of_readThenWrite_three :
    ∃ p, Machine.run (step .readThenWrite fun _ => 107) ⟨smallShop 1, singleUnits 3⟩
        (allAtOnce 3) = some p ∧
      (∀ c ∈ p.tasks, ∃ payload, c.stage = .answered 201 payload) ∧
      confirmedOrders p.state = 3 ∧ sold "FILTER-350" p.state.orderItems = 3 ∧
      stockLeft p.state = 0 :=
  race_of_readThenWrite 3 (by decide) (by decide)

end Checkout

end InfraReplay.DemoShop
