/-
The deny list of the enforcement router and the adapter that edits it.  The
adapter finds an entry by its address and owns it by its comment.
-/
import Mathlib.Data.List.Perm.Basic
import WebOvpn.Lib.Lines

namespace WebOvpn.Netops

open Text List

structure Entry where
  address : Text
  comment : Text
  disabled : Text
  deriving DecidableEq

abbrev AddressList := List Entry

inductive NetError where
  | value
  | ownership
  | device
  | status
  | notFound
  | locked
  | devices
  | unbound
  deriving DecidableEq

/-- What the router does with a call of the adapter: it answers, it fails
before the call takes effect, or it fails when the call has taken effect. -/
inductive Reply where
  | fine
  | failsBefore
  | failsAfter
  deriving DecidableEq

inductive Operation where
  | ensure
  | remove
  deriving DecidableEq

def Operation.opposite : Operation → Operation
  | .ensure => .remove
  | .remove => .ensure

/-- One call of the adapter, as a plan step or a rollback step stores it. -/
structure Request where
  operation : Operation
  target : Text
  address : Text
  policyKey : Text
  assetKey : Text
  deriving DecidableEq

def isKeyChar (c : CodePoint) : Bool := c.isAlnum || c.val == 46 || c.val == 95 || c.val == 45

/-- `^[A-Za-z0-9][A-Za-z0-9._-]{0,127}$`. -/
def isPolicyKey : Text → Bool
  | [] => false
  | c :: rest => c.isAlnum && rest.length ≤ 127 && rest.all isKeyChar

/-- `^[A-Za-z0-9][A-Za-z0-9._:-]{0,180}$`. -/
def isAssetKey : Text → Bool
  | [] => false
  | c :: rest => c.isAlnum && rest.length ≤ 180 && rest.all fun d => isKeyChar d || d.val == 58

def decimal (digits : Text) : Nat := digits.foldl (fun n c => 10 * n + (c.val - 48)) 0

/-- An octet as `ipaddress` reads it: no leading zero, at most 255. -/
def isOctet (part : Text) : Bool :=
  !part.isEmpty && part.length ≤ 3 && part.all CodePoint.isDigit && decimal part ≤ 255 &&
    (part.length == 1 || part.head? != some 48)

/-- An IPv4 address in the form in which `str` writes it. -/
def isIpv4 (address : Text) : Bool :=
  (address.splitOn 46).length == 4 && (address.splitOn 46).all isOctet

def ownershipText (policyKey assetKey : Text) : Text :=
  text "web_ovpn:policy:" ++ policyKey ++ text ":asset:" ++ assetKey

def ownershipComment (policyKey assetKey : Text) : Except NetError Text :=
  if isPolicyKey policyKey ∧ isAssetKey assetKey then .ok (ownershipText policyKey assetKey)
  else .error .value

def checkRequest (source : Text) (request : Request) : Except NetError Text :=
  if request.target ≠ source then .error .value
  else if isIpv4 request.address = false then .error .value
  else ownershipComment request.policyKey request.assetKey

/-- The entry that `add` makes. -/
def newEntry (address comment : Text) : Entry := ⟨address, comment, "false"⟩

/-- `ensure_address_list_entry` and `remove_address_list_entry` on the list:
the first row at the address decides.  The result is the list if it is
written. -/
def perform (operation : Operation) (address comment : Text) (list : AddressList) :
    Except NetError (Option AddressList) :=
  match operation, list.find? fun row => row.address = address with
  | .ensure, none => .ok (some (list ++ [newEntry address comment]))
  | .ensure, some row => if row.comment = comment then .ok none else .error .ownership
  | .remove, none => .ok none
  | .remove, some row =>
    if row.comment = comment then .ok (some (list.eraseP fun row => row.address = address))
    else .error .ownership

def adapterCall (source : Text) (reply : Reply) (request : Request) (list : AddressList) :
    Except NetError Unit × Option AddressList :=
  if reply = .failsBefore then (.error .device, none)
  else
    match checkRequest source request with
    | .error e => (.error e, none)
    | .ok comment =>
      match perform request.operation request.address comment list with
      | .error e => (.error e, none)
      | .ok written => (if reply = .failsAfter then .error .device else .ok (), written)

def managedEntries (list : AddressList) : AddressList :=
  list.filter fun row => (text "web_ovpn:").isPrefixOf row.comment

def rowsAt (address : Text) (list : AddressList) : AddressList :=
  list.filter fun row => row.address = address

variable {list list' : AddressList} {address other comment : Text}

theorem mem_rowsAt {row : Entry} : row ∈ rowsAt address list ↔ row ∈ list ∧ row.address = address := by
  unfold rowsAt
  simp

theorem find?_eq_head?_rowsAt (list : AddressList) (address : Text) :
    (list.find? fun row => row.address = address) = (rowsAt address list).head? := by
  unfold rowsAt
  rw [head?_filter]

theorem perm_iff_rowsAt : list.Perm list' ↔
    ∀ address, (rowsAt address list).Perm (rowsAt address list') := by
  constructor
  · intro h address
    exact h.filter _
  · intro h
    rw [perm_iff_count]
    intro row
    have hcnt := (h row.address).count_eq row
    unfold rowsAt at hcnt
    rwa [count_filter (by simp), count_filter (by simp)] at hcnt

theorem rowsAt_concat (address comment : Text) (list : AddressList) :
    rowsAt other (list ++ [newEntry address comment]) =
      if other = address then rowsAt other list ++ [newEntry address comment]
        else rowsAt other list := by
  unfold rowsAt
  rw [filter_append]
  by_cases h : other = address
  · subst h
    simp [newEntry]
  · have hne : ¬ address = other := fun heq => h heq.symm
    simp [newEntry, h, hne]

theorem rowsAt_eraseP (address : Text) (list : AddressList) :
    rowsAt other (list.eraseP fun row => row.address = address) =
      if other = address then (rowsAt other list).tail else rowsAt other list := by
  induction list with
  | nil => simp [rowsAt]
  | cons row rest ih =>
    unfold rowsAt at ih ⊢
    by_cases hrow : row.address = address
    · rw [eraseP_cons_of_pos (by simpa using hrow)]
      by_cases h : other = address
      · subst h
        simp [hrow]
      · have hne : ¬ row.address = other := by
          rw [hrow]
          exact fun heq => h heq.symm
        simp [h, hne]
    · rw [eraseP_cons_of_neg (by simpa using hrow)]
      by_cases hot : row.address = other
      · have h : ¬ other = address := by
          rw [← hot]
          exact hrow
        rw [filter_cons_of_pos (by simpa using hot), ih, if_neg h, if_neg h,
          filter_cons_of_pos (by simpa using hot)]
      · rw [filter_cons_of_neg (by simpa using hot), ih,
          filter_cons_of_neg (by simpa using hot)]

/-- The rows after a call, if it is not refused for a foreign owner. -/
def performRows (operation : Operation) (address comment : Text) (rows : AddressList) : AddressList :=
  match operation with
  | .ensure => if rows.isEmpty then [newEntry address comment] else rows
  | .remove => rows.tail

def Owned (comment : Text) (rows : AddressList) : Prop := ∀ row ∈ rows.head?, row.comment = comment

theorem perform_eq_ok_iff {operation : Operation} :
    (∃ written, perform operation address comment list = .ok written) ↔
      Owned comment (rowsAt address list) := by
  unfold perform Owned
  rw [find?_eq_head?_rowsAt]
  cases (rowsAt address list).head? with
  | none => cases operation <;> simp
  | some row =>
    by_cases h : row.comment = comment
    · cases operation <;> simp [h]
    · cases operation <;> simp [h]

theorem rowsAt_perform {operation : Operation} {written : Option AddressList}
    (h : perform operation address comment list = .ok written) (other : Text) :
    rowsAt other (written.getD list) =
      if other = address then performRows operation address comment (rowsAt other list)
      else rowsAt other list := by
  unfold perform at h
  rw [find?_eq_head?_rowsAt] at h
  cases hrs : rowsAt address list with
  | nil =>
    rw [hrs] at h
    cases operation with
    | ensure =>
      cases h
      change rowsAt other (list ++ [newEntry address comment]) = _
      rw [rowsAt_concat]
      split_ifs with hot
      · rw [hot, hrs]
        rfl
      · rfl
    | remove =>
      cases h
      change rowsAt other list = _
      split_ifs with hot
      · rw [hot, hrs]
        rfl
      · rfl
  | cons row rest =>
    rw [hrs, head?_cons] at h
    cases operation with
    | ensure =>
      simp only at h
      split_ifs at h
      cases h
      change rowsAt other list = _
      split_ifs with hot
      · rw [hot, hrs]
        rfl
      · rfl
    | remove =>
      simp only at h
      split_ifs at h
      cases h
      exact rowsAt_eraseP address list

end WebOvpn.Netops
