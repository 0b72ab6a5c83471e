import IPStat.Glist
import IPStat.Lib.Segment

/-! The operations of glist.c on the heap. `none` is a fault or a loop without end: a walk is
given one step for each block there is. What malloc answers is an argument: `none` for NULL, else
what the new block happens to hold. -/

namespace IPStat

abbrev GListHeap (δ : Type) := List (Heap.Block (GListCell δ))

abbrev Malloc (δ : Type) := Option (GListCell δ)

section
variable {δ : Type}

def setData (h : GListHeap δ) (p : Nat) (data : δ) : Option (GListHeap δ) := do
  let cell ← Heap.read h p
  Heap.write h p { cell with data := data }

def setNext (h : GListHeap δ) (p : Nat) (next : Option Nat) : Option (GListHeap δ) := do
  let cell ← Heap.read h p
  Heap.write h p { cell with next := next }

def gListLastLoop : Nat → GListHeap δ → Nat → Option Nat
  | 0, _, _ => none
  | fuel + 1, h, list => do
    let cell ← Heap.read h list
    match cell.next with
    | none => some list
    | some next => gListLastLoop fuel h next

def gListLast (h : GListHeap δ) : Option Nat → Option (Option Nat)
  | none => some none
  | some list => (gListLastLoop h.length h list).map some

def gListAppend (h : GListHeap δ) (malloc : Malloc δ) (list : Option Nat) (data : δ) :
    Option (GListHeap δ × Option Nat) :=
  match malloc with
  | none => some (h, none)
  | some junk => do
    let (h, ptr) := Heap.alloc h junk
    let h ← setData h ptr data
    let h ← setNext h ptr none
    match list with
    | none => some (h, some ptr)
    | some _ =>
      match ← gListLast h list with
      | none => none
      | some last =>
        let h ← setNext h last (some ptr)
        some (h, list)

def gListPrepend (h : GListHeap δ) (malloc : Malloc δ) (list : Option Nat) (data : δ) :
    Option (GListHeap δ × Option Nat) :=
  match malloc with
  | none => some (h, none)
  | some junk => do
    let (h, ptr) := Heap.alloc h junk
    let h ← setData h ptr data
    let h ← setNext h ptr list
    some (h, some ptr)

/-- The loop of g_list_insert, up to the value of `prev_list`. -/
def gListInsertLoop (h : GListHeap δ) : Nat → Option Nat → Option Nat → Option (Option Nat)
  | 0, prev, _ => some prev
  | _ + 1, prev, none => some prev
  | position + 1, _, some tmp => do
    let cell ← Heap.read h tmp
    gListInsertLoop h position (some tmp) cell.next

def gListInsert (h : GListHeap δ) (malloc : Malloc δ) (list : Option Nat) (data : δ)
    (position : Int) : Option (GListHeap δ × Option Nat) :=
  if position < 0 then gListAppend h malloc list data
  else if position = 0 then gListPrepend h malloc list data
  else
    match malloc with
    | none => some (h, none)
    | some junk => do
      let (h, ptr) := Heap.alloc h junk
      let h ← setData h ptr data
      match list with
      | none =>
        let h ← setNext h ptr none
        some (h, some ptr)
      | some _ =>
        match ← gListInsertLoop h position.toNat none list with
        | some prev =>
          let cell ← Heap.read h prev
          let h ← setNext h ptr cell.next
          let h ← setNext h prev (some ptr)
          some (h, list)
        | none =>
          let h ← setNext h ptr list
          some (h, some ptr)

def gListConcat (h : GListHeap δ) (list1 list2 : Option Nat) :
    Option (GListHeap δ × Option Nat) :=
  match list2, list1 with
  | none, _ => some (h, list1)
  | some _, none => some (h, list2)
  | some _, some _ => do
    match ← gListLast h list1 with
    | none => none
    | some last =>
      let h ← setNext h last list2
      some (h, list1)

def gListRemoveLoop [DecidableEq δ] (h : GListHeap δ) (data : δ) (list : Option Nat) :
    Nat → Option Nat → Option Nat → Option (GListHeap δ × Option Nat)
  | _, _, none => some (h, list)
  | 0, _, some _ => none
  | fuel + 1, prev, some tmp => do
    let cell ← Heap.read h tmp
    if cell.data = data then
      match prev with
      | some prev =>
        let h ← setNext h prev cell.next
        let h ← Heap.free h tmp
        some (h, list)
      | none =>
        let h ← Heap.free h tmp
        some (h, cell.next)
    else gListRemoveLoop h data list fuel (some tmp) cell.next

def gListRemove [DecidableEq δ] (h : GListHeap δ) (list : Option Nat) (data : δ) :
    Option (GListHeap δ × Option Nat) :=
  gListRemoveLoop h data list h.length none list

def gListReverseLoop : Nat → GListHeap δ → Option Nat → Option Nat →
    Option (GListHeap δ × Option Nat)
  | _, h, prev, none => some (h, prev)
  | 0, _, _, some _ => none
  | fuel + 1, h, prev, some list => do
    let cell ← Heap.read h list
    let h ← setNext h list prev
    gListReverseLoop fuel h (some list) cell.next

def gListReverse (h : GListHeap δ) (list : Option Nat) : Option (GListHeap δ × Option Nat) :=
  gListReverseLoop h.length h none list

/-- The loop of g_list_copy; `malloc k` is the answer to its call number `k`. -/
def gListCopyLoop (malloc : Nat → Malloc δ) (ptr : Nat) :
    Nat → Nat → GListHeap δ → Nat → Option Nat → Option (GListHeap δ × Option Nat)
  | _, _, h, last, none => do
    let h ← setNext h last none
    some (h, some ptr)
  | 0, _, _, _, some _ => none
  | fuel + 1, k, h, last, some list =>
    match malloc k with
    | none => do
      let h ← setNext h last none
      some (h, none)
    | some junk => do
      let (h, new) := Heap.alloc h junk
      let h ← setNext h last (some new)
      let cell ← Heap.read h list
      let h ← setData h new cell.data
      gListCopyLoop malloc ptr fuel (k + 1) h new cell.next

def gListCopy (h : GListHeap δ) (malloc : Nat → Malloc δ) :
    Option Nat → Option (GListHeap δ × Option Nat)
  | none => some (h, none)
  | some list =>
    match malloc 0 with
    | none => some (h, none)
    | some junk => do
      let fuel := h.length
      let (h, ptr) := Heap.alloc h junk
      let cell ← Heap.read h list
      let h ← setData h ptr cell.data
      gListCopyLoop malloc ptr fuel 1 h ptr cell.next

/-- g_list_find and the loop of g_list_find_custom: the first cell whose data passes the test. -/
def gListFindLoop (test : δ → Bool) (h : GListHeap δ) : Nat → Option Nat → Option (Option Nat)
  | _, none => some none
  | 0, some _ => none
  | fuel + 1, some list => do
    let cell ← Heap.read h list
    if test cell.data then some (some list) else gListFindLoop test h fuel cell.next

def gListFind [DecidableEq δ] (h : GListHeap δ) (list : Option Nat) (data : δ) :
    Option (Option Nat) :=
  gListFindLoop (fun d => d = data) h h.length list

/-- A NULL `func` gives the list back. -/
def gListFindCustom (h : GListHeap δ) (list : Option Nat) (data : δ)
    (func : Option (δ → δ → Int)) : Option (Option Nat) :=
  match func with
  | none => some list
  | some func => gListFindLoop (fun d => func d data = 0) h h.length list

/-- g_list_index counts the cells before the first with this data. -/
def gListIndexLoop [DecidableEq δ] (h : GListHeap δ) (data : δ) :
    Nat → Int → Option Nat → Option Int
  | _, _, none => some (-1)
  | 0, _, some _ => none
  | fuel + 1, i, some list => do
    let cell ← Heap.read h list
    if cell.data = data then some i else gListIndexLoop h data fuel (i + 1) cell.next

def gListIndex [DecidableEq δ] (h : GListHeap δ) (list : Option Nat) (data : δ) : Option Int :=
  gListIndexLoop h data h.length 0 list

/-- `length` is a guint. -/
def gListLengthLoop (h : GListHeap δ) : Nat → Nat → Option Nat → Option Nat
  | _, length, none => some length
  | 0, _, some _ => none
  | fuel + 1, length, some list => do
    let cell ← Heap.read h list
    gListLengthLoop h fuel ((length + 1) % 4294967296) cell.next

def gListLength (h : GListHeap δ) (list : Option Nat) : Option Nat :=
  gListLengthLoop h h.length 0 list

/-- `func` works on the user data and leaves the list alone. -/
def gListForeachLoop {σ : Type} (h : GListHeap δ) (func : δ → σ → σ) :
    Nat → σ → Option Nat → Option σ
  | _, user, none => some user
  | 0, _, some _ => none
  | fuel + 1, user, some list => do
    let cell ← Heap.read h list
    gListForeachLoop h func fuel (func cell.data user) cell.next

def gListForeach {σ : Type} (h : GListHeap δ) (list : Option Nat) (func : δ → σ → σ) (user : σ) :
    Option σ :=
  gListForeachLoop h func h.length user list

end

end IPStat
