import Mathlib.Data.List.Forall2
import RentalDesk.Proofs.Arithmetic.Value
import RentalDesk.Proofs.Text.Decimal
import RentalDesk.Proofs.Text.Instant
import RentalDesk.Proofs.Wire.Text

/-!
# Lists read back

A list is answered with one line for each row and a last line `END`. A line is cut at its
semicolons into the fields it was made of, because no field has one of its own, and the fields tell
what the row says: identifiers, states and instants as they are, amounts in whole cents, and free
text with spaces for its semicolons and line ends. So two lists have the same lines only if their
rows agree in this one by one. Of a zero a line also tells whether it has a minus sign.
-/

namespace RentalDesk

open Text

/-! ## Free text -/

/-- One text is the other one with a space for every separator and every line end. -/
def Spaced (s t : String) : Prop :=
  List.Forall₂
    (fun c d => if c = fieldSeparator ∨ c = '\n' ∨ c = '\r' then d = ' ' else d = c)
    s.toList t.toList

theorem spaced_sanitize (s : String) : Spaced s (sanitize s) := by
  rw [Spaced, sanitize, String.toList_ofList, List.forall₂_map_right_iff, List.forall₂_same]
  intro c _
  split <;> rfl

theorem Spaced.length_eq {s t : String} (h : Spaced s t) : t.length = s.length := by
  rw [← String.length_toList, ← String.length_toList]
  exact (List.Forall₂.length_eq h).symm

/-! ## Amounts -/

/-- An amount in a line: whether it has a minus sign, and its hundredths without the sign. -/
structure Cents where
  negative : Bool
  count : Nat
deriving DecidableEq

namespace Cents

/-- The number that is written. -/
def value (c : Cents) : ℚ := if c.negative then -(c.count / 100) else c.count / 100

def toText (c : Cents) : String :=
  String.ofList (Decimal.signText c.negative ++ Decimal.positional c.count Decimal.currencyScale)

/-- Reads the digits of a text in a row, whether there is a minus sign in front or not. -/
def read (cs : List Char) : Cents :=
  match cs with
  | '-' :: rest => ⟨true, natOfDigits (rest.filter Char.isDigit)⟩
  | _ => ⟨false, natOfDigits (cs.filter Char.isDigit)⟩

/-- The point between its digits makes no difference to a number of hundredths. -/
theorem natOfDigits_filter_positional (mantissa scale : Nat) :
    natOfDigits ((Decimal.positional mantissa scale).filter Char.isDigit) = mantissa := by
  have hdigits : ∀ c ∈ paddedDigits (scale + 1) mantissa, c.isDigit = true :=
    fun c => isDigit_of_mem_paddedDigits
  have digits : (Decimal.positional mantissa scale).filter Char.isDigit =
      paddedDigits (scale + 1) mantissa := by
    rw [Decimal.positional]
    split
    · next hzero =>
        rw [hzero, Nat.sub_zero, List.take_length]
        exact List.filter_eq_self.2 (hzero ▸ hdigits)
    · rw [List.filter_append, List.filter_cons_of_neg (by decide), ← List.filter_append,
        List.take_append_drop]
      exact List.filter_eq_self.2 hdigits
  rw [digits, natOfDigits_paddedDigits]

theorem read_toText (c : Cents) : read c.toText.toList = c := by
  obtain ⟨negative, count⟩ := c
  rw [toText, String.toList_ofList]
  have digits := natOfDigits_filter_positional count Decimal.currencyScale
  cases negative with
  | true => exact congrArg (Cents.mk true) digits
  | false =>
      obtain ⟨c, rest, htext, hc⟩ := Decimal.positional_eq_cons count Decimal.currencyScale
      rw [Decimal.signText, if_neg Bool.false_ne_true, List.nil_append, htext, read]
      · rw [← htext, digits]
      · exact cons_ne_cons_of_isDigit hc rfl rest

/-- A zero with a minus sign. -/
def IsNegativeZero (c : Cents) : Prop := c.negative = true ∧ c.count = 0

/-- Cents are determined by the number, but for the sign of a zero. -/
theorem eq_iff {c c' : Cents} :
    c = c' ↔ c.value = c'.value ∧ (c.IsNegativeZero ↔ c'.IsNegativeZero) := by
  constructor
  · rintro rfl
    exact ⟨rfl, Iff.rfl⟩
  · rintro ⟨same, zero⟩
    obtain ⟨negative, count⟩ := c
    obtain ⟨negative', count'⟩ := c'
    -- Opposite signs are those of two zeros, of which one is negative.
    have opposite : ∀ {n m : ℕ}, (-(n / 100) : ℚ) = m / 100 → n = 0 ∧ m = 0 := by
      intro n m h
      have sum : (n + m : ℚ) = 0 := by linarith
      exact Nat.add_eq_zero_iff.1 (by exact_mod_cast sum)
    cases negative <;> cases negative' <;> simp only [value, IsNegativeZero, if_true, if_false,
      Bool.false_eq_true, true_and, false_and] at same zero
    · simpa using same
    · exact absurd (zero.2 (opposite same.symm).1) not_false
    · exact absurd (zero.1 (opposite same).1) not_false
    · simpa using same

end Cents

namespace Decimal

/-- What a line tells of an amount. -/
def cents (d : Decimal) : Cents :=
  ⟨d.rounded.negative, d.rounded.mantissa * tenPow (currencyScale - d.rounded.scale)⟩

/-- The same is told of two amounts. -/
def Alike (d d' : Decimal) : Prop :=
  toCents d.value = toCents d'.value ∧ (d.IsNegativeZero ↔ d'.IsNegativeZero)

theorem value_cents (d : Decimal) : d.cents.value = toCents d.value := by
  rw [← value_rounded, Cents.value, cents, natCast_hundredths _ d.scale_rounded_le]
  cases sign : d.rounded.negative with
  | false => exact (value_of_positive sign).symm
  | true => exact (value_of_negative sign).symm

/-- What is rounded to zero is written without a sign, but a zero keeps the sign that it has. -/
theorem isNegativeZero_cents (d : Decimal) : d.cents.IsNegativeZero ↔ d.IsNegativeZero := by
  have zero : ∀ n, 0 < n → divHalfUp 0 n = 0 := fun n hn => Nat.le_zero.1 (divHalfUp_le 0 hn)
  have none : ∀ n, n * tenPow (currencyScale - d.rounded.scale) = 0 ↔ n = 0 := fun n => by simp
  rw [Cents.IsNegativeZero, cents, none, IsNegativeZero, rounded]
  split
  · rfl
  · dsimp only
    split
    · next hzero => simp [dropDecimals, hzero, zero]
    · next hzero => simp [plainZero, hzero]

theorem cents_eq_iff {d d' : Decimal} : d.cents = d'.cents ↔ d.Alike d' := by
  rw [Cents.eq_iff, value_cents, value_cents, isNegativeZero_cents, isNegativeZero_cents, Alike]

end Decimal

/-! ## What a line tells -/

/-- What the line of a row tells. -/
inductive Told where
  | fee (id : FeeId) (amount : Cents) (reason : String) (paid : Bool)
  | rental (id : RentalId) (item : ItemId) (title : String) (rentedAt : Instant)
    (returnedAt : Option Instant)
  | invoice (id : InvoiceId) (issuedAt : Instant) (total : Cents)
  | film (id : ItemId) (title : String) (available : Bool)
deriving DecidableEq

namespace Told

/-- The fields in which it is told. -/
def fields : Told → List String
  | .fee id amount reason paid =>
    ["FEE", idText id, amount.toText, reason, if paid then "PAID" else "UNPAID"]
  | .rental id item title rentedAt returnedAt =>
    ["RENTAL", idText id, idText item, title, rentedAt.lineText,
      match returnedAt with
      | some time => time.lineText
      | none => "-"]
  | .invoice id issuedAt total => ["INVOICE", idText id, issuedAt.lineText, total.toText]
  | .film id title available =>
    ["FILM", idText id, title, if available then "AVAILABLE" else "RENTED"]

/-- One of two words. -/
def readState? (yes no word : String) : Option Bool :=
  if word = yes then some true else if word = no then some false else none

/-- An instant, or a hyphen for none. -/
def readTime? (text : String) : Option (Option Instant) :=
  if text = "-" then some none else (Instant.ofText? text).map some

def readId? (text : String) : Option UInt64 := (readWord 10 text.toList).toOption

def ofFields? : List String → Option Told
  | ["FEE", id, amount, reason, status] => do
    return .fee (← readId? id) (Cents.read amount.toList) reason
      (← readState? "PAID" "UNPAID" status)
  | ["RENTAL", id, item, title, rentedAt, returnedAt] => do
    return .rental (← readId? id) (← readId? item) title (← Instant.ofText? rentedAt)
      (← readTime? returnedAt)
  | ["INVOICE", id, issuedAt, total] => do
    return .invoice (← readId? id) (← Instant.ofText? issuedAt) (Cents.read total.toList)
  | ["FILM", id, title, availability] => do
    return .film (← readId? id) title (← readState? "AVAILABLE" "RENTED" availability)
  | _ => none

/-- Reads a line, which is first cut at its separators. -/
def ofLine? (line : String) : Option Told :=
  ofFields? ((splitFields line.toList).map String.ofList)

@[simp] theorem readId?_idText (id : UInt64) : readId? (idText id) = some id := by
  rw [readId?, idText, natText, String.toList_ofList, readWord_natDigits]
  rfl

theorem readState?_ite {yes no : String} (h : no ≠ yes) (state : Bool) :
    readState? yes no (if state then yes else no) = some state := by
  cases state <;> simp [readState?, h]

/-- The text of an instant is no hyphen, because it has more than one character. -/
theorem readTime?_lineText (i : Instant) : readTime? i.lineText = some (some i) := by
  have long : i.lineText ≠ "-" := by
    intro h
    have read := i.ofText?_lineText
    rw [h] at read
    cases (show Instant.ofText? "-" = none by decide +kernel).symm.trans read
  rw [readTime?, if_neg long, i.ofText?_lineText]
  rfl

/-- What is told in fields is read from them. -/
theorem ofFields?_fields (told : Told) : ofFields? told.fields = some told := by
  cases told with
  | fee id amount reason paid =>
      simp [fields, ofFields?, Cents.read_toText, readState?_ite]
  | rental id item title rentedAt returnedAt =>
      cases returnedAt with
      | none => simp [fields, ofFields?, Instant.ofText?_lineText, readTime?]
      | some time => simp [fields, ofFields?, Instant.ofText?_lineText, readTime?_lineText]
  | invoice id issuedAt total =>
      simp [fields, ofFields?, Cents.read_toText, Instant.ofText?_lineText]
  | film id title available => simp [fields, ofFields?, readState?_ite]

end Told

/-! ## Lines read back -/

/-- A line is cut into the fields of its record. -/
theorem splitFields_recordLine {fields : List String} (ne : fields ≠ [])
    (h : ∀ field ∈ fields, IsField field.toList) :
    (splitFields (recordLine fields).toList).map String.ofList = fields := by
  cases fields with
  | nil => exact absurd rfl ne
  | cons word fields =>
      have cut : Cut (recordLine (word :: fields)).toList word.toList
          (fields.map String.toList) := by
        refine ⟨toList_recordLine word fields, ?_⟩
        rw [← List.map_cons, List.forall_mem_map]
        exact fun field hfield => (h field hfield).separator_not_mem
      rw [cut.splitFields_eq, ← List.map_cons, List.map_map]
      exact List.map_id'' (fun s => String.ofList_toList) _

/-- Rows of one kind, each of which is told in a line of so many fields, are listed so that the
lines can be read back. -/
structure Legible {α : Type} (reply : List α → Reply) (line : α → String) (told : α → Told)
    (count : Nat) (alike : α → α → Prop) : Prop where
  lines : ∀ rows, (reply rows).lines = rows.map line ++ [endOfList]
  not_end : ∀ row, line row ≠ endOfList
  cut : ∀ row, (splitFields (line row).toList).map String.ofList = (told row).fields
  count : ∀ row, (splitFields (line row).toList).length = count
  read : ∀ row, Told.ofLine? (line row) = some (told row)
  lines_eq_iff : ∀ rows rows',
    (reply rows).lines = (reply rows').lines ↔ List.Forall₂ alike rows rows'

section

variable {α : Type} {reply : List α → Reply} {line : α → String} {told : α → Told} {count : Nat}
  {alike : α → α → Prop} (lines : ∀ rows, (reply rows).lines = rows.map line ++ [endOfList])
  (line_eq : ∀ row, line row = recordLine (told row).fields)
  (isField : ∀ row, ∀ field ∈ (told row).fields, IsField field.toList)
  (length : ∀ row, (told row).fields.length = count + 1)
  (told_eq_iff : ∀ row row', told row = told row' ↔ alike row row')

include lines line_eq isField length told_eq_iff

theorem Legible.of_told : Legible reply line told (count + 1) alike := by
  have cut (row : α) : (splitFields (line row).toList).map String.ofList = (told row).fields := by
    rw [line_eq]
    refine splitFields_recordLine (fun empty => ?_) (isField row)
    have some := length row
    rw [empty] at some
    cases some
  have read (row : α) : Told.ofLine? (line row) = some (told row) := by
    rw [Told.ofLine?, cut, Told.ofFields?_fields]
  have same (row row' : α) : line row = line row' ↔ alike row row' := by
    rw [← told_eq_iff]
    refine ⟨fun h => ?_, fun h => by rw [line_eq, h, ← line_eq]⟩
    exact Option.some.inj ((read row).symm.trans ((congrArg _ h).trans (read row')))
  refine ⟨lines, fun row atEnd => ?_, cut, fun row => ?_, read, fun rows rows' => ?_⟩
  · have told := read row
    rw [atEnd] at told
    cases (show Told.ofLine? endOfList = none by decide +kernel).symm.trans told
  · rw [← List.length_map (f := String.ofList), cut, length]
  · rw [lines, lines, List.append_cancel_right_eq, ← List.forall₂_eq_eq_eq,
      List.forall₂_map_left_iff, List.forall₂_map_right_iff]
    simp only [same]

end

/-! ## The four kinds of rows -/

theorem isField_cents (d : Decimal) : IsField d.cents.toText.toList := IsField.display d

/-- What the line of a fee tells. -/
def FeeView.told (fee : FeeView) : Told :=
  .fee fee.id fee.amount.cents (sanitize fee.reason) fee.paid

def RentalView.told (view : RentalView) : Told :=
  .rental view.rental.id view.rental.itemId (sanitize view.title) view.rental.rentedAt
    view.rental.returnedAt

def Invoice.told (invoice : Invoice) : Told :=
  .invoice invoice.id invoice.issuedAt invoice.total.cents

def Item.told (item : Item) : Told := .film item.id (sanitize item.title) item.available

/-- The same is told of two fees. -/
structure FeeView.Alike (fee fee' : FeeView) : Prop where
  id : fee.id = fee'.id
  amount : fee.amount.Alike fee'.amount
  reason : sanitize fee.reason = sanitize fee'.reason
  paid : fee.paid = fee'.paid

structure RentalView.Alike (view view' : RentalView) : Prop where
  id : view.rental.id = view'.rental.id
  item : view.rental.itemId = view'.rental.itemId
  title : sanitize view.title = sanitize view'.title
  rentedAt : view.rental.rentedAt = view'.rental.rentedAt
  returnedAt : view.rental.returnedAt = view'.rental.returnedAt

structure Invoice.Alike (invoice invoice' : Invoice) : Prop where
  id : invoice.id = invoice'.id
  issuedAt : invoice.issuedAt = invoice'.issuedAt
  total : invoice.total.Alike invoice'.total

structure Item.Alike (item item' : Item) : Prop where
  id : item.id = item'.id
  title : sanitize item.title = sanitize item'.title
  available : item.available = item'.available

theorem legible_fees : Legible Reply.fees FeeView.line FeeView.told 5 FeeView.Alike := by
  refine .of_told (fun _ => rfl) (fun _ => rfl) (fun fee => ?_) (fun _ => rfl) fun fee fee' => ?_
  · cases hpaid : fee.paid <;> simp [FeeView.told, Told.fields, hpaid, isField_cents]
  · rw [FeeView.told, FeeView.told, Told.fee.injEq, Decimal.cents_eq_iff]
    exact ⟨fun ⟨id, amount, reason, paid⟩ => ⟨id, amount, reason, paid⟩,
      fun ⟨id, amount, reason, paid⟩ => ⟨id, amount, reason, paid⟩⟩

theorem legible_rentals :
    Legible Reply.rentals RentalView.line RentalView.told 6 RentalView.Alike := by
  refine .of_told (fun _ => rfl) (fun _ => rfl) (fun view => ?_) (fun _ => rfl) fun view view' => ?_
  · cases hreturned : view.rental.returnedAt <;>
      simp [RentalView.told, Told.fields, hreturned]
  · rw [RentalView.told, RentalView.told, Told.rental.injEq]
    exact ⟨fun ⟨id, item, title, rented, returned⟩ => ⟨id, item, title, rented, returned⟩,
      fun ⟨id, item, title, rented, returned⟩ => ⟨id, item, title, rented, returned⟩⟩

theorem legible_invoices :
    Legible Reply.invoices Invoice.line Invoice.told 4 Invoice.Alike := by
  refine .of_told (fun _ => rfl) (fun _ => rfl) (fun invoice => ?_) (fun _ => rfl)
    fun invoice invoice' => ?_
  · simp [Invoice.told, Told.fields, isField_cents]
  · rw [Invoice.told, Invoice.told, Told.invoice.injEq, Decimal.cents_eq_iff]
    exact ⟨fun ⟨id, issued, total⟩ => ⟨id, issued, total⟩,
      fun ⟨id, issued, total⟩ => ⟨id, issued, total⟩⟩

theorem legible_films : Legible Reply.films Item.line Item.told 4 Item.Alike := by
  refine .of_told (fun _ => rfl) (fun _ => rfl) (fun item => ?_) (fun _ => rfl) fun item item' => ?_
  · cases havailable : item.available <;> simp [Item.told, Told.fields, havailable]
  · rw [Item.told, Item.told, Told.film.injEq]
    exact ⟨fun ⟨id, title, available⟩ => ⟨id, title, available⟩,
      fun ⟨id, title, available⟩ => ⟨id, title, available⟩⟩

/-- All lists can be read back: what their lines tell is the identifiers, the states and the
instants of the rows, the amounts rounded to cents, and the texts with spaces for what would break a
line. Lists with the same lines agree in this row by row. -/
theorem Reply.lists_read_back :
    (Legible Reply.fees FeeView.line FeeView.told 5 FeeView.Alike ∧
      Legible Reply.rentals RentalView.line RentalView.told 6 RentalView.Alike ∧
      Legible Reply.invoices Invoice.line Invoice.told 4 Invoice.Alike ∧
      Legible Reply.films Item.line Item.told 4 Item.Alike) ∧
    (∀ d : Decimal, d.cents.value = toCents d.value ∧
      (d.cents.IsNegativeZero ↔ d.IsNegativeZero)) ∧
    ∀ s : String, Spaced s (sanitize s) ∧ (sanitize s).length = s.length :=
  ⟨⟨legible_fees, legible_rentals, legible_invoices, legible_films⟩,
    fun d => ⟨d.value_cents, d.isNegativeZero_cents⟩,
    fun s => ⟨spaced_sanitize s, (spaced_sanitize s).length_eq⟩⟩

/-- A fee over nothing, with a minus sign or without. -/
def feeOverZero (negative : Bool) : FeeView :=
  ⟨1, 1, 1, { Decimal.zero with negative }, "late", false⟩

/-- Two fees that differ in the sign of a zero alone have different lines. -/
theorem lines_ne_of_zeros :
    (feeOverZero true).id = (feeOverZero false).id ∧
    toCents (feeOverZero true).amount.value = toCents (feeOverZero false).amount.value ∧
    sanitize (feeOverZero true).reason = sanitize (feeOverZero false).reason ∧
    (feeOverZero true).paid = (feeOverZero false).paid ∧
    (Reply.fees [feeOverZero true]).lines ≠ (Reply.fees [feeOverZero false]).lines := by
  have zero (negative : Bool) : (feeOverZero negative).amount.value = 0 :=
    Decimal.value_eq_zero_iff.2 rfl
  exact ⟨rfl, by rw [zero, zero], rfl, rfl, by decide +kernel⟩

end RentalDesk
