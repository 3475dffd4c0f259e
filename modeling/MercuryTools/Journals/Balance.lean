import MercuryTools.Framework.DecimalRounding
import MercuryTools.Journals.Models

/-!
# Balanced vouchers

The totals of a voucher are rounded to twenty-eight digits after every line.  A total below `10 ^ 26`
is exact, and one above is never seen as one below (`foldl_addInContext_of_lt`,
`le_foldl_addInContext`).  So where either side of a voucher stays below, what is accepted is
balanced, and what is balanced is accepted.
-/

namespace MercuryTools
namespace Journals

open Checks Decimals
open Flows (Fields getArg stripText)

/-! ## Totals -/

/-- The exact total of one side. -/
def total (side : Side) (entries : List JournalLine) : ℚ :=
  ((entries.filter fun entry => entry.side = side).map JournalLine.amount).sum

/-- An amount in hundredths that is not negative. -/
def IsMoney (amount : ℚ) : Prop :=
  HasPlaces 2 amount ∧ 0 ≤ amount

variable {amounts : List ℚ} {sum amount : ℚ}

lemma IsMoney.add (hsum : IsMoney sum) (hamount : IsMoney amount) : IsMoney (sum + amount) :=
  ⟨hsum.1.add hamount.1, add_nonneg hsum.2 hamount.2⟩

lemma sum_nonneg_of_isMoney (h : ∀ amount ∈ amounts, IsMoney amount) : 0 ≤ amounts.sum :=
  List.sum_nonneg fun amount hamount => (h amount hamount).2

/-- A sum in the context is an amount again. -/
lemma IsMoney.addInContext (hsum : IsMoney sum) (hamount : IsMoney amount) :
    IsMoney (addInContext sum amount) :=
  ⟨hasPlaces_roundSignificant le_rfl (hsum.add hamount).1,
    roundSignificant_nonneg (hsum.add hamount).2⟩

/-- A sum of at most twenty-eight digits is exact. -/
lemma addInContext_of_lt (hsum : IsMoney sum) (hamount : IsMoney amount)
    (hlt : sum + amount < 10 ^ 26) : addInContext sum amount = sum + amount := by
  refine roundSignificant_of_fewDigits (by norm_num)
    (FewDigits.of_hasPlaces le_rfl (hsum.add hamount).1 ?_)
  rw [abs_of_nonneg (hsum.add hamount).2]
  linarith

/-- A longer sum stays above. -/
lemma le_addInContext (hsum : IsMoney sum) (hamount : IsMoney amount)
    (hle : 10 ^ 26 ≤ sum + amount) : 10 ^ 26 ≤ addInContext sum amount := by
  have hround := le_roundSignificant (k := 28) (Nat.succ_pos 27) (hsum.add hamount).1
    (by linarith)
  unfold addInContext
  linarith

theorem foldl_addInContext_of_lt (hsum : IsMoney sum) (h : ∀ amount ∈ amounts, IsMoney amount)
    (hlt : sum + amounts.sum < 10 ^ 26) : amounts.foldl addInContext sum = sum + amounts.sum := by
  induction amounts generalizing sum with
  | nil => rw [List.foldl_nil, List.sum_nil, add_zero]
  | cons amount amounts ih =>
      rw [List.sum_cons, ← add_assoc] at hlt ⊢
      have hrest := sum_nonneg_of_isMoney fun other hother => h other (List.mem_cons_of_mem _ hother)
      have hamount := h amount List.mem_cons_self
      rw [List.foldl_cons, addInContext_of_lt hsum hamount (by linarith)]
      exact ih (hsum.add hamount) (fun other hother => h other (List.mem_cons_of_mem _ hother)) hlt

theorem le_foldl_addInContext (hsum : IsMoney sum) (h : ∀ amount ∈ amounts, IsMoney amount)
    (hle : 10 ^ 26 ≤ sum + amounts.sum) : 10 ^ 26 ≤ amounts.foldl addInContext sum := by
  induction amounts generalizing sum with
  | nil => rwa [List.sum_nil, add_zero] at hle
  | cons amount amounts ih =>
      rw [List.sum_cons, ← add_assoc] at hle
      have hrest := sum_nonneg_of_isMoney fun other hother => h other (List.mem_cons_of_mem _ hother)
      have hamount := h amount List.mem_cons_self
      refine ih (hsum.addInContext hamount)
        (fun other hother => h other (List.mem_cons_of_mem _ hother)) ?_
      rcases lt_or_ge (sum + amount) (10 ^ 26) with hlt | hge
      · rwa [addInContext_of_lt hsum hamount hlt]
      · have := le_addInContext hsum hamount hge
        linarith

/-- The total of a side, as the code computes it. -/
def roundedTotal (side : Side) (entries : List JournalLine) : ℚ :=
  ((entries.filter fun entry => entry.side = side).map JournalLine.amount).foldl addInContext 0

lemma isMoney_zero : IsMoney 0 :=
  ⟨HasPlaces.zero 2, le_rfl⟩

section

variable {entries : List JournalLine} (h : ∀ entry ∈ entries, IsMoney entry.amount)

include h

lemma isMoney_side (side : Side) :
    ∀ amount ∈ (entries.filter fun entry => entry.side = side).map JournalLine.amount,
      IsMoney amount := by
  intro amount hamount
  obtain ⟨entry, hentry, rfl⟩ := List.mem_map.1 hamount
  exact h entry (List.mem_of_mem_filter hentry)

lemma roundedTotal_lt_iff (side : Side) :
    roundedTotal side entries < 10 ^ 26 ↔ total side entries < 10 ^ 26 := by
  constructor
  · intro hlt
    by_contra hge
    refine absurd hlt (not_lt.2 (le_foldl_addInContext isMoney_zero (isMoney_side h side) ?_))
    rw [zero_add]
    exact not_lt.1 hge
  · intro hlt
    rw [roundedTotal, foldl_addInContext_of_lt isMoney_zero (isMoney_side h side)] <;>
      rw [zero_add] <;> exact hlt

lemma roundedTotal_eq {side : Side} (hlt : total side entries < 10 ^ 26) :
    roundedTotal side entries = total side entries := by
  rw [roundedTotal, foldl_addInContext_of_lt isMoney_zero (isMoney_side h side), zero_add]
  · rfl
  · rwa [zero_add]

/-- Where one side stays below, the totals are found equal exactly if they are. -/
theorem roundedTotal_eq_iff
    (hlt : total .debit entries < 10 ^ 26 ∨ total .credit entries < 10 ^ 26) :
    roundedTotal .debit entries = roundedTotal .credit entries ↔
      total .debit entries = total .credit entries := by
  have hboth : ∀ {side other : Side}, total side entries < 10 ^ 26 →
      (roundedTotal side entries = roundedTotal other entries ↔
        total side entries = total other entries) := by
    intro side other hside
    constructor
    · intro heq
      have hother := (roundedTotal_lt_iff h other).1 (heq ▸ (roundedTotal_lt_iff h side).2 hside)
      rwa [roundedTotal_eq h hside, roundedTotal_eq h hother] at heq
    · intro heq
      rw [roundedTotal_eq h hside, roundedTotal_eq h (heq ▸ hside), heq]
  rcases hlt with hdebit | hcredit
  · exact hboth hdebit
  · rw [eq_comm, hboth hcredit, eq_comm]

end

/-! ## Lines -/

section

variable (rules : JournalRules)

/-- What a line posts: its side, its amount in hundredths, and the one account of the chart that fits
it. -/
structure Posts (accounts : List Fields) (line : Fields) (entry : JournalLine) : Prop where
  side : rules.values.lower (stripText (textOf rules (getArg line "side"))) = entry.side.text
  amount : ∃ number, rules.decimal (rules.values.str (getArg line "amount")) =
    some (.finite number) ∧ entry.amount = roundHalfUp 2 number.value
  positive : 0 < entry.amount
  short : entry.amount < 10 ^ 26
  named : normalizeText rules (getArg line "account_code") ≠ "" ∨
    normalizeText rules (getArg line "account_name") ≠ ""
  account : accounts.filter (fits rules line) = [entry.account]
  accountId : ∃ value, entry.account.lookup "id" = some value ∧
    rules.values.int value = some entry.accountId
  description : entry.description = orNone (stripText (textOf rules (getArg line "description")))

variable {rules} {accounts : List Fields} {line : Fields} {entry : JournalLine}

lemma Posts.isMoney (h : Posts rules accounts line entry) : IsMoney entry.amount := by
  obtain ⟨number, -, hamount⟩ := h.amount
  exact ⟨hamount ▸ hasPlaces_roundHalfUp 2 number.value, h.positive.le⟩

variable {side : Side} {α ε : Type}

lemma readSide_eq_ok : readSide rules line = .ok side ↔
    rules.values.lower (stripText (textOf rules (getArg line "side"))) = side.text := by
  unfold readSide
  generalize rules.values.lower (stripText (textOf rules (getArg line "side"))) = text
  simp only
  split
  · next heq => cases side <;> simp [heq, Side.text]
  · next hdebit =>
      split
      · next heq => cases side <;> simp [heq, Side.text]
      · next hcredit => cases side <;> simp [hdebit, hcredit, Side.text]

lemma money_eq_ok {value : Json} : money rules value = .ok amount ↔
    (∃ number, rules.decimal (rules.values.str value) = some (.finite number) ∧
      amount = roundHalfUp 2 number.value) ∧ 0 < amount ∧ amount < 10 ^ 26 := by
  unfold money
  constructor
  · intro h
    simp only at h
    split at h
    · next number hnumber =>
        split at h
        · next hshort =>
            split at h
            · next hpos =>
                obtain rfl := Except.ok.inj h
                rw [abs_of_pos hpos] at hshort
                exact ⟨⟨number, hnumber, rfl⟩, hpos, by linarith⟩
            · cases h
        · cases h
    · cases h
    · cases h
    · cases h
  · rintro ⟨⟨number, hnumber, rfl⟩, hpos, hshort⟩
    have hlength : |roundHalfUp 2 number.value| * 10 ^ 2 < 10 ^ 28 := by
      rw [abs_of_pos hpos]
      linarith
    simp only [hnumber]
    rw [if_pos hlength, if_pos hpos]

lemma resolveAccount_eq_ok {row : Fields} : resolveAccount rules line accounts = .ok row ↔
    (normalizeText rules (getArg line "account_code") ≠ "" ∨
      normalizeText rules (getArg line "account_name") ≠ "") ∧
    accounts.filter (fits rules line) = [row] := by
  unfold resolveAccount
  constructor
  · intro h
    split at h
    · cases h
    · next hnamed =>
        refine ⟨not_and_or.1 hnamed, ?_⟩
        split at h
        · cases h
        · next found hfound => rw [hfound, Except.ok.inj h]
        · cases h
  · rintro ⟨hnamed, hfound⟩
    rw [if_neg (not_and_or.2 hnamed), hfound]

lemma elim_eq_ok {o : Option α} {e : ε} {a : α} :
    o.elim (.error e) .ok = (.ok a : Except ε α) ↔ o = some a := by
  cases o <;> simp

lemma accountId_eq_ok {account : Fields} {id : ℤ} : accountId rules account = .ok id ↔
    ∃ value, account.lookup "id" = some value ∧ rules.values.int value = some id := by
  unfold accountId
  cases account.lookup "id" with
  | none => simp
  | some value => simp [elim_eq_ok]

/-- A line passes its checks exactly if it posts what is read of it. -/
theorem readLine_eq_ok :
    readLine rules accounts line = .ok entry ↔ Posts rules accounts line entry := by
  unfold readLine
  simp only [bind_eq_ok, pure_eq_ok, readSide_eq_ok, money_eq_ok, resolveAccount_eq_ok,
    accountId_eq_ok]
  constructor
  · rintro ⟨side, hside, amount, ⟨hamount, hpos, hshort⟩, account, ⟨hnamed, haccount⟩, id, hid, rfl⟩
    exact ⟨hside, hamount, hpos, hshort, hnamed, haccount, hid, rfl⟩
  · intro h
    refine ⟨_, h.side, _, ⟨h.amount, h.positive, h.short⟩, _, ⟨h.named, h.account⟩, _, h.accountId, ?_⟩
    rw [← h.description]

/-! ## The loop -/

/-- A loop that reads an element and then adds it. -/
lemma foldlM_map_eq_ok {σ β : Type} {f : α → Except ε β} {g : σ → β → σ} {xs : List α} {s s' : σ} :
    xs.foldlM (fun s x => g s <$> f x) s = .ok s' ↔
      ∃ ys, List.Forall₂ (fun x y => f x = .ok y) xs ys ∧ ys.foldl g s = s' := by
  induction xs generalizing s with
  | nil =>
      rw [List.foldlM_nil, pure_eq_ok]
      constructor
      · rintro rfl
        exact ⟨[], .nil, rfl⟩
      · rintro ⟨ys, hys, rfl⟩
        cases hys
        rfl
  | cons x xs ih =>
      rw [List.foldlM_cons, bind_eq_ok]
      constructor
      · rintro ⟨t, ht, hrest⟩
        obtain ⟨y, hy, rfl⟩ := map_eq_ok.1 ht
        obtain ⟨ys, hys, hfold⟩ := ih.1 hrest
        exact ⟨y :: ys, .cons hy hys, hfold⟩
      · rintro ⟨ys, hys, hfold⟩
        cases hys with
        | cons hy hys => exact ⟨_, map_eq_ok.2 ⟨_, hy, rfl⟩, ih.2 ⟨_, hys, hfold⟩⟩

/-- The totals and the lines that a voucher ends with. -/
lemma foldl_add (entries : List JournalLine) (state : JournalState) :
    entries.foldl (JournalState.add rules) state = {
      debit := ((entries.filter fun entry => entry.side = .debit).map
        JournalLine.amount).foldl addInContext state.debit
      credit := ((entries.filter fun entry => entry.side = .credit).map
        JournalLine.amount).foldl addInContext state.credit
      bodyLines := state.bodyLines ++ entries.map (bodyLine rules)
      previewLines := state.previewLines ++ entries.map (previewLine rules) } := by
  induction entries generalizing state with
  | nil => simp
  | cons entry entries ih =>
      rw [List.foldl_cons, ih]
      cases hside : entry.side <;> simp [JournalState.add, hside]

/-! ## Accepted vouchers -/

variable {request : JournalRequest} {prepared : PreparedJournal} {entries : List JournalLine}

/-- The checks before the lines. -/
structure HeadAccepted (rules : JournalRules) (request : JournalRequest) (date : String) : Prop where
  date : rules.isoDate request.documentDate = some date
  reference : request.environment = "production" → stripText request.reference ≠ ""
  description : stripText request.description ≠ ""
  lines : 2 ≤ request.lines.length

/-- What is prepared from the entries of a voucher. -/
def preparedFrom (rules : JournalRules) (request : JournalRequest) (date : String)
    (entries : List JournalLine) : PreparedJournal where
  documentDate := date
  reference := stripText request.reference
  description := stripText request.description
  totalDebit := twoPlaces (roundedTotal .debit entries)
  totalCredit := twoPlaces (roundedTotal .credit entries)
  previewLines := entries.map (previewLine rules)
  flowaccountPayload := flowaccountPayload request date (entries.map (bodyLine rules))

lemma prepareGeneralJournal_eq_ok : prepareGeneralJournal rules request = .ok prepared ↔
    ∃ date entries, HeadAccepted rules request date ∧
      List.Forall₂ (Posts rules request.accounts) request.lines entries ∧
      roundedTotal .debit entries ≠ 0 ∧ roundedTotal .credit entries ≠ 0 ∧
      roundedTotal .debit entries = roundedTotal .credit entries ∧
      prepared = preparedFrom rules request date entries := by
  have hloop : ∀ state, request.lines.foldlM (fun state line =>
      state.add rules <$> readLine rules request.accounts line) JournalState.empty = .ok state ↔
      ∃ entries, List.Forall₂ (Posts rules request.accounts) request.lines entries ∧
        entries.foldl (JournalState.add rules) JournalState.empty = state := by
    intro state
    rw [foldlM_map_eq_ok]
    simp only [readLine_eq_ok]
  unfold prepareGeneralJournal
  simp only [bind_eq_ok, require_eq_ok, elim_eq_ok, pure_eq_ok, hloop, decide_eq_true_eq,
    bne_iff_ne, Bool.not_eq_true', Bool.and_eq_false_imp, beq_iff_eq, beq_eq_false_iff_ne]
  constructor
  · rintro ⟨date, hdate, _, hreference, _, hdescription, _, hlines, _, ⟨entries, hentries, rfl⟩, _,
      hbalance, rfl⟩
    rw [foldl_add] at hbalance ⊢
    exact ⟨date, entries, ⟨hdate, hreference, hdescription, hlines⟩, hentries, hbalance.1,
      hbalance.2.1, hbalance.2.2, rfl⟩
  · rintro ⟨date, entries, ⟨hdate, hreference, hdescription, hlines⟩, hentries, hdebit, hcredit,
      hequal, rfl⟩
    refine ⟨date, hdate, ⟨⟩, hreference, ⟨⟩, hdescription, ⟨⟩, hlines, _, ⟨entries, hentries, rfl⟩,
      ⟨⟩, ?_, ?_⟩
    · rw [foldl_add]
      exact ⟨hdebit, hcredit, hequal⟩
    · rw [foldl_add]
      rfl

/-- The amounts that are posted. -/
lemma isMoney_of_posts (h : List.Forall₂ (Posts rules request.accounts) request.lines entries) :
    ∀ entry ∈ entries, IsMoney entry.amount := by
  intro entry hentry
  obtain ⟨line, -, hposts⟩ := exists_of_forall₂ h hentry
  exact hposts.isMoney

/-- A side with a line has a positive total. -/
lemma total_pos (h : List.Forall₂ (Posts rules request.accounts) request.lines entries)
    (hentry : entry ∈ entries) (hside : entry.side = side) : 0 < total side entries := by
  have hmem : entry.amount ∈ (entries.filter fun entry => entry.side = side).map
      JournalLine.amount :=
    List.mem_map_of_mem (List.mem_filter.2 ⟨hentry, decide_eq_true hside⟩)
  obtain ⟨line, -, hposts⟩ := exists_of_forall₂ h hentry
  calc 0 < entry.amount := hposts.positive
    _ ≤ total side entries := List.single_le_sum
      (fun amount hamount => (isMoney_side (isMoney_of_posts h) side amount hamount).2) _ hmem

/-- What is accepted was posted line by line, and is balanced to the hundredth where one side stays
below `10 ^ 26`. -/
theorem prepareGeneralJournal_balanced (h : prepareGeneralJournal rules request = .ok prepared) :
    ∃ entries, List.Forall₂ (Posts rules request.accounts) request.lines entries ∧
      prepared.previewLines = entries.map (previewLine rules) ∧
      prepared.flowaccountPayload =
        flowaccountPayload request prepared.documentDate (entries.map (bodyLine rules)) ∧
      (total .debit entries < 10 ^ 26 ∨ total .credit entries < 10 ^ 26 →
        total .debit entries = total .credit entries ∧ 0 < total .debit entries ∧
        prepared.totalDebit = twoPlaces (total .debit entries) ∧
        prepared.totalCredit = twoPlaces (total .credit entries)) := by
  obtain ⟨date, entries, -, hentries, hdebit, -, hequal, rfl⟩ := prepareGeneralJournal_eq_ok.1 h
  have hmoney := isMoney_of_posts hentries
  refine ⟨entries, hentries, rfl, rfl, fun hlt => ?_⟩
  have htotal := (roundedTotal_eq_iff hmoney hlt).1 hequal
  have hdebitLt : total .debit entries < 10 ^ 26 := hlt.elim id (htotal ▸ ·)
  have hrounded := roundedTotal_eq hmoney hdebitLt
  refine ⟨htotal, lt_of_le_of_ne ?_ (hrounded ▸ hdebit).symm, ?_, ?_⟩
  · exact sum_nonneg_of_isMoney (isMoney_side hmoney .debit)
  · exact congrArg twoPlaces hrounded
  · exact congrArg twoPlaces (roundedTotal_eq hmoney (htotal ▸ hdebitLt))

/-- Texts and whole numbers as Python has them; letters are small already. -/
def plainRules : JournalRules where
  values := {
    str := fun
      | .str text => text
      | .int n => toString n
      | _ => "None"
    repr := fun _ => ""
    int := fun
      | .int n => some n
      | _ => none
    lower := id
    eq := fun x y => decide (x = y)
    isZero := fun text => text == "0.0"
    redactJson := id
    validFilters := fun _ => true }
  casefold := id
  decimal text := (Decimal.parse 2 text).map .finite
  isoDate := some
  float _ := ""

/-- Shipping on a marketplace: one account is debited, two are credited. -/
def shippingRequest : JournalRequest where
  documentDate := "2026-07-10"
  reference := "SHIPPING-1"
  description := "Shipping"
  lines := [
    [("side", .str "debit"), ("account_code", .str "52010"), ("amount", .str "4236")],
    [("side", .str "credit"), ("account_code", .str "11379.01"), ("amount", .str "2844.5")],
    [("side", .str "credit"), ("account_code", .str "11379.04"), ("amount", .str "1391.5")]]
  accounts := [[("id", .int 501), ("code", .str "52010"), ("nameLocal", .str "Shipping")],
    [("id", .int 601), ("code", .str "11379.01"), ("nameLocal", .str "Shop")],
    [("id", .int 604), ("code", .str "11379.04"), ("nameLocal", .str "Market")]]
  environment := "production"
  note := none
  remarks := none

/-- Its entries. -/
def shippingEntries : List JournalLine :=
  [⟨.debit, 4236, [("id", .int 501), ("code", .str "52010"), ("nameLocal", .str "Shipping")], 501,
      .null⟩,
    ⟨.credit, 5689 / 2, [("id", .int 601), ("code", .str "11379.01"), ("nameLocal", .str "Shop")],
      601, .null⟩,
    ⟨.credit, 2783 / 2, [("id", .int 604), ("code", .str "11379.04"), ("nameLocal", .str "Market")],
      604, .null⟩]

/-- What is prepared of it. -/
def shippingJournal : PreparedJournal :=
  preparedFrom plainRules shippingRequest "2026-07-10" shippingEntries

theorem prepareGeneralJournal_balanced_shipping :
    ∃ entries, List.Forall₂ (Posts plainRules shippingRequest.accounts) shippingRequest.lines entries ∧
      shippingJournal.previewLines = entries.map (previewLine plainRules) ∧
      shippingJournal.flowaccountPayload = flowaccountPayload shippingRequest
        shippingJournal.documentDate (entries.map (bodyLine plainRules)) ∧
      (total .debit entries < 10 ^ 26 ∨ total .credit entries < 10 ^ 26 →
        total .debit entries = total .credit entries ∧ 0 < total .debit entries ∧
        shippingJournal.totalDebit = twoPlaces (total .debit entries) ∧
        shippingJournal.totalCredit = twoPlaces (total .credit entries)) :=
  prepareGeneralJournal_balanced
    (show prepareGeneralJournal plainRules shippingRequest = .ok shippingJournal by decide +kernel)

/-- With one side below `10 ^ 26`, exactly the vouchers are accepted whose head is, whose lines all
post, and whose totals are equal. -/
theorem prepareGeneralJournal_isOk_iff
    (hlt : ∀ entries, List.Forall₂ (Posts rules request.accounts) request.lines entries →
      total .debit entries < 10 ^ 26 ∨ total .credit entries < 10 ^ 26) :
    (∃ prepared, prepareGeneralJournal rules request = .ok prepared) ↔
      ∃ date entries, HeadAccepted rules request date ∧
        List.Forall₂ (Posts rules request.accounts) request.lines entries ∧
        total .debit entries = total .credit entries := by
  constructor
  · rintro ⟨prepared, h⟩
    obtain ⟨date, entries, hhead, hentries, -, -, hequal, -⟩ := prepareGeneralJournal_eq_ok.1 h
    exact ⟨date, entries, hhead, hentries,
      (roundedTotal_eq_iff (isMoney_of_posts hentries) (hlt entries hentries)).1 hequal⟩
  · rintro ⟨date, entries, hhead, hentries, htotal⟩
    have hmoney := isMoney_of_posts hentries
    have hequal := (roundedTotal_eq_iff hmoney (hlt entries hentries)).2 htotal
    have hdebitLt : total .debit entries < 10 ^ 26 := (hlt entries hentries).elim id (htotal ▸ ·)
    have hrounded := roundedTotal_eq hmoney hdebitLt
    have hlines : 0 < entries.length := by
      have := hhead.lines
      rw [← hentries.length_eq]
      omega
    have hentry := List.getElem_mem hlines
    have hpos : 0 < total .debit entries := by
      cases hside : entries[0].side with
      | debit => exact total_pos hentries hentry hside
      | credit => exact htotal ▸ total_pos hentries hentry hside
    exact ⟨_, prepareGeneralJournal_eq_ok.2 ⟨date, entries, hhead, hentries,
      (hrounded ▸ hpos).ne', (hequal ▸ hrounded ▸ hpos).ne', hequal, rfl⟩⟩

/-- A line for the first account. -/
def hugeLine (side amount : String) : Fields :=
  [("side", .str side), ("account_code", .str "52010"), ("amount", .str amount)]

/-- From `10 ^ 26` on a hundredth may get lost: this voucher is accepted. -/
example : (prepareGeneralJournal plainRules { shippingRequest with
    lines := [hugeLine "debit" "50000000000000000000000000",
      hugeLine "debit" "50000000000000000000000000", hugeLine "debit" "0.01",
      hugeLine "credit" "50000000000000000000000000",
      hugeLine "credit" "50000000000000000000000000"] }).toBool = true := by
  decide +kernel

/-- The entries of the lines are determined. -/
lemma eq_shippingEntries
    (h : List.Forall₂ (Posts plainRules shippingRequest.accounts) shippingRequest.lines entries) :
    entries = shippingEntries := by
  have hread : shippingRequest.lines.mapM (readLine plainRules shippingRequest.accounts) =
      .ok entries := mapM_eq_ok.2 (h.imp fun _ _ hposts => readLine_eq_ok.2 hposts)
  have hshipping : shippingRequest.lines.mapM (readLine plainRules shippingRequest.accounts) =
      .ok shippingEntries := by decide +kernel
  rw [hshipping] at hread
  exact (Except.ok.inj hread).symm

theorem prepareGeneralJournal_isOk_iff_shipping :
    (∃ prepared, prepareGeneralJournal plainRules shippingRequest = .ok prepared) ↔
      ∃ date entries, HeadAccepted plainRules shippingRequest date ∧
        List.Forall₂ (Posts plainRules shippingRequest.accounts) shippingRequest.lines entries ∧
        total .debit entries = total .credit entries :=
  prepareGeneralJournal_isOk_iff fun entries h => by
    rw [eq_shippingEntries h]
    exact .inl (by decide +kernel)

end

end Journals
end MercuryTools
