import EzIot.Lib.Links
import EzIot.Lib.Run

/-! # Doubly linked lists

A list is a header and the nodes that were linked into it. Null stands for the header
wherever a link is followed to the node whose own link is read or written.
-/

namespace EzIot.Ezlist

open Links Run

/-! ## The list and its operations -/

structure EzNode (α : Type) where
  next : Option α
  prev : Option α
deriving DecidableEq

/-- `ez_list_t` and the memory of the nodes: `links none` is the header. -/
structure EzList (α : Type) where
  links : Option α → EzNode α
  size : Nat

namespace EzList

variable {α : Type}

/-- The link that is read behind a node, or from the header. -/
def next (l : EzList α) (p : Option α) : Option α := (l.links p).next

def prev (l : EzList α) (p : Option α) : Option α := (l.links p).prev

/-- The nodes from the front on, as many as are counted. -/
def toList (l : EzList α) : List α := nodes (fun x => l.next (some x)) l.size (l.next none)

def setSize (l : EzList α) (n : Nat) : EzList α := { l with size := n }

@[simp] theorem setSize_next (l : EzList α) (n : Nat) : (l.setSize n).next = l.next := rfl

@[simp] theorem setSize_prev (l : EzList α) (n : Nat) : (l.setSize n).prev = l.prev := rfl

variable [DecidableEq α]

def setNext (l : EzList α) (p v : Option α) : EzList α :=
  { l with links := Function.update l.links p { l.links p with next := v } }

def setPrev (l : EzList α) (p v : Option α) : EzList α :=
  { l with links := Function.update l.links p { l.links p with prev := v } }

section Fields

variable (l : EzList α) (p v : Option α)

@[simp] theorem setNext_next : (l.setNext p v).next = Function.update l.next p v := by
  funext q
  by_cases hq : q = p
  · subst hq
    simp [next, setNext]
  · simp [next, setNext, Function.update_of_ne hq]

@[simp] theorem setNext_prev : (l.setNext p v).prev = l.prev := by
  funext q
  by_cases hq : q = p
  · subst hq
    simp [prev, setNext]
  · simp [prev, setNext, Function.update_of_ne hq]

@[simp] theorem setPrev_prev : (l.setPrev p v).prev = Function.update l.prev p v := by
  funext q
  by_cases hq : q = p
  · subst hq
    simp [prev, setPrev]
  · simp [prev, setPrev, Function.update_of_ne hq]

@[simp] theorem setPrev_next : (l.setPrev p v).next = l.next := by
  funext q
  by_cases hq : q = p
  · subst hq
    simp [next, setPrev]
  · simp [next, setPrev, Function.update_of_ne hq]

@[simp] theorem setNext_size : (l.setNext p v).size = l.size := rfl

@[simp] theorem setPrev_size : (l.setPrev p v).size = l.size := rfl


end Fields

def ezlistInit (node : α → EzNode α) : EzList α where
  links
    | none => ⟨none, none⟩
    | some x => node x
  size := 0

def ezlistAddAt (l : EzList α) (pprev : Option α) (pnode : α) : EzList α :=
  let pnodeNext := l.next pprev
  let l := l.setNext pprev (some pnode)
  let l := l.setPrev pnodeNext (some pnode)
  let l := l.setNext (some pnode) pnodeNext
  let l := l.setPrev (some pnode) pprev
  l.setSize (l.size + 1)

def ezlistAddLast (l : EzList α) (pnode : α) : EzList α := l.ezlistAddAt (l.prev none) pnode

def ezlistDelete (l : EzList α) (pnode : α) : EzList α :=
  if l.next (l.prev (some pnode)) ≠ some pnode then l
  else if l.prev (l.next (some pnode)) ≠ some pnode then l
  else
    let l := l.setNext (l.prev (some pnode)) (l.next (some pnode))
    let l := l.setPrev (l.next (some pnode)) (l.prev (some pnode))
    l.setSize (l.size - 1)

end EzList

/-! ## Sequences of operations -/

inductive ListOp (α : Type)
  | addLast (pnode : α)
  | addAt (pprev : Option α) (pnode : α)
  | delete (pnode : α)

/-- A list, and the nodes that were ever added to it. -/
structure Built (α : Type) where
  list : EzList α
  added : List α

section Runs

variable {α : Type} [DecidableEq α]

def intMax : Nat := 2147483647

/-- Before any operation. -/
def Built.init (node : α → EzNode α) : Built α := ⟨.ezlistInit node, []⟩

def Built.step (b : Built α) : ListOp α → Option (Built α)
  | .addLast pnode =>
      if b.list.size = intMax then none else some ⟨b.list.ezlistAddLast pnode, pnode :: b.added⟩
  | .addAt pprev pnode =>
      if b.list.size = intMax then none
      else some ⟨b.list.ezlistAddAt pprev pnode, pnode :: b.added⟩
  | .delete pnode => some ⟨b.list.ezlistDelete pnode, b.added⟩

/-- A node is added while it is not in the list, behind one that is; one is deleted that
was added before. -/
def Proper (b : Built α) : ListOp α → Prop
  | .addLast pnode => pnode ∉ b.list.toList
  | .addAt pprev pnode => pnode ∉ b.list.toList ∧ ∀ p, pprev = some p → p ∈ b.list.toList
  | .delete pnode => pnode ∈ b.added

instance (b : Built α) (op : ListOp α) : Decidable (Proper b op) :=
  match op with
  | .addLast x => inferInstanceAs (Decidable (x ∉ b.list.toList))
  | .addAt none x => decidable_of_iff (x ∉ b.list.toList) (by simp [Proper])
  | .addAt (some p) x =>
      decidable_of_iff (x ∉ b.list.toList ∧ p ∈ b.list.toList) (by simp [Proper])
  | .delete x => inferInstanceAs (Decidable (x ∈ b.added))

/-! ## What a list represents -/

/-- Both ways through the links, the list is `xs`. -/
structure Represents (l : EzList α) (xs : List α) : Prop where
  forward : Threaded l.next xs
  backward : Threaded l.prev xs.reverse
  nodup : xs.Nodup
  size : l.size = xs.length

/-- What an operation makes of a list. -/
def ListOp.meant (xs : List α) : ListOp α → List α
  | .addLast pnode => xs ++ [pnode]
  | .addAt none pnode => pnode :: xs
  | .addAt (some pprev) pnode => xs.insertIdx (xs.idxOf pprev + 1) pnode
  | .delete pnode => xs.erase pnode

/-- Behind the node before a deleted one, there is always another node. -/
structure Inv (b : Built α) (xs : List α) : Prop where
  represents : Represents b.list xs
  counted : xs.length ≤ intMax
  known : ∀ x ∈ xs, x ∈ b.added
  detached : ∀ x ∈ b.added, x ∉ xs → b.list.next (b.list.prev (some x)) ≠ some x

section Reading

omit [DecidableEq α]

variable {l : EzList α} {a c xs : List α} {x : α}

theorem Represents.toList (h : Represents l xs) : l.toList = xs := by
  unfold EzList.toList
  rw [h.size]
  exact nodes_chain h.forward

theorem Represents.next_getLast? (h : Represents l (a ++ c)) : l.next a.getLast? = c.head? :=
  (threaded_append.mp h.forward).2.2

theorem Represents.prev_head? (h : Represents l (a ++ c)) : l.prev c.head? = a.getLast? := by
  have hback := h.backward
  rw [List.reverse_append, threaded_append, List.getLast?_reverse, List.head?_reverse] at hback
  exact hback.2.2

theorem Represents.behind (h : Represents l (a ++ x :: c)) : Represents l ((a ++ [x]) ++ c) := by
  rwa [List.append_assoc, List.singleton_append]

theorem Represents.prev_node (h : Represents l (a ++ x :: c)) : l.prev (some x) = a.getLast? :=
  h.prev_head?

theorem Represents.next_node (h : Represents l (a ++ x :: c)) : l.next (some x) = c.head? := by
  have hnext := h.behind.next_getLast?
  rwa [List.getLast?_concat] at hnext

theorem Represents.nodup_reverse (h : Represents l (a ++ c)) :
    (c.reverse ++ a.reverse).Nodup := by
  rw [← List.reverse_append, List.nodup_reverse]
  exact h.nodup

/-- The two checks of a deletion hold for a node of the list. -/
theorem Represents.linked (h : Represents l (a ++ x :: c)) :
    l.next (l.prev (some x)) = some x ∧ l.prev (l.next (some x)) = some x := by
  constructor
  · rw [h.prev_node]
    exact h.next_getLast?
  · rw [h.next_node, h.behind.prev_head?, List.getLast?_concat]

theorem Represents.init (node : α → EzNode α) : Represents (.ezlistInit node) [] :=
  ⟨rfl, rfl, .nil, rfl⟩

/-- A place behind a node of the list, or before all of them. -/
theorem exists_place {pprev : Option α} (h : ∀ p, pprev = some p → p ∈ xs) :
    ∃ a c, xs = a ++ c ∧ pprev = a.getLast? := by
  cases pprev with
  | none => exact ⟨[], xs, rfl, rfl⟩
  | some p =>
      obtain ⟨a, c, hxs⟩ := List.append_of_mem (h p rfl)
      exact ⟨a ++ [p], c, by rw [hxs, List.append_assoc, List.singleton_append],
        by rw [List.getLast?_concat]⟩

theorem next_mem {a c : List α} {l : EzList α} (h : Represents l (a ++ c)) {y : α}
    (hy : l.next a.getLast? = some y) : y ∈ a ++ c := by
  rw [h.next_getLast?] at hy
  exact List.mem_append_right a (List.mem_of_head? hy)

end Reading

section Writing

variable {l : EzList α} {a c xs : List α} {x : α}

theorem Represents.addAt (h : Represents l (a ++ c)) (hx : x ∉ a ++ c) :
    Represents (l.ezlistAddAt a.getLast? x) (a ++ x :: c) := by
  have hxr : x ∉ c.reverse ++ a.reverse := by
    rw [← List.reverse_append, List.mem_reverse]
    exact hx
  have hback := h.backward
  rw [List.reverse_append] at hback
  refine ⟨?_, ?_, ?_, ?_⟩
  · have hinsert := h.forward.insert h.nodup hx
    rw [← h.next_getLast?] at hinsert
    simpa [EzList.ezlistAddAt] using hinsert
  · have hinsert := hback.insert h.nodup_reverse hxr
    rw [List.getLast?_reverse, List.head?_reverse, ← h.next_getLast?] at hinsert
    simpa [EzList.ezlistAddAt] using hinsert
  · exact List.nodup_middle.mpr (List.nodup_cons.mpr ⟨hx, h.nodup⟩)
  · have hsize := h.size
    rw [List.length_append] at hsize
    rw [List.length_append, List.length_cons]
    show l.size + 1 = _
    omega

/-- The links that a deletion writes. -/
theorem Represents.ezlistDelete (h : Represents l (a ++ x :: c)) :
    (l.ezlistDelete x).next = Function.update l.next a.getLast? c.head? ∧
      (l.ezlistDelete x).prev = Function.update l.prev c.head? a.getLast? ∧
      (l.ezlistDelete x).size = l.size - 1 := by
  have hlast : some x ≠ a.getLast? := fun heq =>
    not_getLast?_of_nodup h.nodup x List.mem_cons_self heq.symm
  unfold EzList.ezlistDelete
  rw [if_neg (not_not.mpr h.linked.1), if_neg (not_not.mpr h.linked.2)]
  simp only [EzList.setNext_next, EzList.setNext_prev, EzList.setNext_size, EzList.setPrev_size,
    EzList.setSize_next, EzList.setSize_prev, EzList.setPrev_next, EzList.setPrev_prev]
  rw [h.prev_node, h.next_node, Function.update_of_ne hlast, h.next_node]
  exact ⟨rfl, rfl, rfl⟩

theorem Represents.delete (h : Represents l (a ++ x :: c)) :
    Represents (l.ezlistDelete x) (a ++ c) := by
  obtain ⟨hnext, hprev, hcount⟩ := h.ezlistDelete
  have hback := h.backward
  rw [List.reverse_append, List.reverse_cons, List.append_assoc, List.singleton_append] at hback
  have hnodup : (c.reverse ++ x :: a.reverse).Nodup := by
    simpa using h.nodup_reverse
  refine ⟨?_, ?_, ?_, ?_⟩
  · rw [hnext]
    exact h.forward.erase h.nodup
  · have herase := hback.erase hnodup
    rw [List.getLast?_reverse, List.head?_reverse] at herase
    rw [hprev, List.reverse_append]
    exact herase
  · exact h.nodup.sublist (by simp)
  · have hsize := h.size
    rw [List.length_append, List.length_cons] at hsize
    rw [hcount, List.length_append]
    omega

end Writing

/-! ## Steps -/

section Steps

variable {b b' : Built α} {xs : List α} {x : α}

omit [DecidableEq α] in
theorem insertIdx_length (a c : List α) (x : α) : (a ++ c).insertIdx a.length x = a ++ x :: c := by
  induction a with
  | nil => rfl
  | cons y a ih => rw [List.cons_append, List.length_cons, List.insertIdx_succ_cons, ih,
      List.cons_append]

theorem meant_addAt {a c : List α} (h : (a ++ c).Nodup) (x : α) :
    (ListOp.addAt a.getLast? x).meant (a ++ c) = a ++ x :: c := by
  rcases List.eq_nil_or_concat' a with rfl | ⟨a, p, rfl⟩
  · rfl
  · have hp : p ∉ a := fun hmem =>
      List.disjoint_of_nodup_append (h.of_append_left) hmem (List.mem_singleton_self p)
    have hplace : (a ++ [p] ++ c).idxOf p + 1 = (a ++ [p]).length := by
      rw [List.append_assoc, List.idxOf_append_of_notMem hp, List.singleton_append,
        List.idxOf_cons_self, List.length_append]
      rfl
    rw [List.getLast?_concat, ListOp.meant, hplace, insertIdx_length]

theorem Inv.addAt {a c : List α} (h : Inv b (a ++ c)) (hx : x ∉ a ++ c)
    (hfull : b.list.size ≠ intMax) :
    Inv ⟨b.list.ezlistAddAt a.getLast? x, x :: b.added⟩ (a ++ x :: c) := by
  refine ⟨h.represents.addAt hx, ?_, fun y hy => ?_, fun y hy hout => ?_⟩
  · have hsize := h.represents.size
    have hcounted := h.counted
    rw [List.length_append] at hsize hcounted
    rw [List.length_append, List.length_cons]
    omega
  · rcases List.mem_append.mp hy with hya | hyc
    · exact List.mem_cons_of_mem x (h.known y (List.mem_append_left c hya))
    · rcases List.mem_cons.mp hyc with rfl | hyc
      · exact List.mem_cons_self
      · exact List.mem_cons_of_mem x (h.known y (List.mem_append_right a hyc))
  · -- nothing that is written is a link to a node outside of the list
    have hyx : y ≠ x := fun heq => hout (by simp [heq])
    have hyout : y ∉ a ++ c := fun hmem => hout (by
      rcases List.mem_append.mp hmem with hya | hyc
      · exact List.mem_append_left _ hya
      · exact List.mem_append_right a (List.mem_cons_of_mem x hyc))
    have hyold : y ∈ b.added := (List.mem_cons.mp hy).resolve_left hyx
    have hold := h.detached y hyold hyout
    have hlink : b.list.next a.getLast? ≠ some y := fun heq => hyout (next_mem h.represents heq)
    have hprev : (b.list.ezlistAddAt a.getLast? x).prev (some y) = b.list.prev (some y) := by
      simp only [EzList.ezlistAddAt, EzList.setSize_prev, EzList.setPrev_prev, EzList.setNext_prev]
      rw [Function.update_of_ne (by simpa using hyx), Function.update_of_ne hlink.symm]
    show (b.list.ezlistAddAt a.getLast? x).next _ ≠ some y
    rw [hprev]
    simp only [EzList.ezlistAddAt, EzList.setSize_next, EzList.setPrev_next, EzList.setNext_next]
    by_cases hself : b.list.prev (some y) = some x
    · rw [hself, Function.update_self]
      exact hlink
    · rw [Function.update_of_ne hself]
      by_cases hat : b.list.prev (some y) = a.getLast?
      · rw [hat, Function.update_self]
        simpa using hyx.symm
      · rw [Function.update_of_ne hat]
        exact hold

theorem Inv.delete {a c : List α} (h : Inv b (a ++ x :: c)) :
    Inv ⟨b.list.ezlistDelete x, b.added⟩ (a ++ c) := by
  have hsub : (a ++ c).Sublist (a ++ x :: c) := by simp
  obtain ⟨hnext, hprev, -⟩ := h.represents.ezlistDelete
  refine ⟨h.represents.delete, Nat.le_trans hsub.length_le h.counted,
    fun y hy => h.known y (hsub.subset hy), fun y hy hout => ?_⟩
  have hhead : c.head? ≠ some y := fun heq =>
    hout (List.mem_append_right a (List.mem_of_head? heq))
  show (b.list.ezlistDelete x).next ((b.list.ezlistDelete x).prev (some y)) ≠ some y
  rw [hnext, hprev, Function.update_of_ne hhead.symm]
  by_cases hat : b.list.prev (some y) = a.getLast?
  · rw [hat, Function.update_self]
    exact hhead
  · -- another node than the one that goes now
    have hyx : y ≠ x := fun heq => hat (heq ▸ h.represents.prev_node)
    have hyout : y ∉ a ++ x :: c := fun hmem => hout (by simpa [hyx] using hmem)
    rw [Function.update_of_ne hat]
    exact h.detached y hy hyout

theorem Inv.delete_again (h : Inv b xs) (hx : x ∈ b.added) (hout : x ∉ xs) :
    b.list.ezlistDelete x = b.list := if_pos (h.detached x hx hout)

theorem Inv.step (h : Inv b xs) {op : ListOp α} (hproper : Proper b op)
    (hstep : b.step op = some b') : Inv b' (op.meant xs) := by
  have hlist := h.represents.toList
  cases op with
  | addLast pnode =>
      obtain ⟨hfull, hb⟩ := Option.ite_none_left_eq_some.mp hstep
      cases hb
      have hx : pnode ∉ xs ++ [] := by
        rw [List.append_nil, ← hlist]
        exact hproper
      have hsplit : Inv b (xs ++ []) := by rwa [List.append_nil]
      have hlast : b.list.prev none = xs.getLast? := hsplit.represents.prev_head?
      have hadded := hsplit.addAt hx hfull
      rw [← hlast] at hadded
      exact hadded
  | addAt pprev pnode =>
      obtain ⟨hfull, hb⟩ := Option.ite_none_left_eq_some.mp hstep
      cases hb
      obtain ⟨hx, hplace⟩ := hproper
      rw [hlist] at hx hplace
      obtain ⟨a, c, rfl, rfl⟩ := exists_place hplace
      rw [meant_addAt h.represents.nodup]
      exact h.addAt hx hfull
  | delete pnode =>
      cases hstep
      by_cases hmem : pnode ∈ xs
      · obtain ⟨a, c, rfl⟩ := List.append_of_mem hmem
        have hfirst : pnode ∉ a := fun ha =>
          List.disjoint_of_nodup_append h.represents.nodup ha List.mem_cons_self
        rw [ListOp.meant, List.erase_append_right _ hfirst, List.erase_cons_head]
        exact h.delete
      · rw [ListOp.meant, List.erase_of_not_mem hmem, h.delete_again hproper hmem]
        exact h

omit [DecidableEq α] in
theorem Inv.init (node : α → EzNode α) : Inv (.init node) [] :=
  ⟨.init node, Nat.zero_le _, by simp, by simp [Built.init]⟩

theorem reach_inv {node : α → EzNode α} (h : Reach Built.step Proper (.init node) b) :
    ∃ xs, Inv b xs := by
  refine h.invariant (I := fun b => ∃ xs, Inv b xs) ?_ ?_
  · exact ⟨[], .init node⟩
  · intro b op b' hb hproper hstep
    obtain ⟨xs, hb⟩ := hb
    exact ⟨_, hb.step hproper hstep⟩

end Steps

/-! ## Access by position -/

/-- `ezlist_get_at`. There is no result where a null link is followed. -/
def EzList.ezlistGetAt {α : Type} (l : EzList α) (index : UInt32) : Option (Option α) :=
  let size := UInt32.ofNat l.size
  if index < 1 ∨ size < index then some none
  else if index < UInt32.ofNat (l.size >>> 1) then
    walk (fun x => l.next (some x)) (index - 1).toNat (l.next none)
  else
    -- from the back, but as far as this is behind the middle
    let index := index - (size - index)
    walk (fun x => l.prev (some x)) index.toNat (l.prev none)

def EzList.nth {α : Type} (l : EzList α) (index : UInt32) : Option α :=
  if index.toNat = 0 then none else l.toList[index.toNat - 1]?

/-- A position outside of the list, one in its first half, or the one at two thirds. -/
def FoundAt {α : Type} (l : EzList α) (index : UInt32) : Prop :=
  index.toNat = 0 ∨ l.size < index.toNat ∨ index.toNat < l.size / 2 ∨
    3 * index.toNat = 2 * l.size

section Access

omit [DecidableEq α]

variable {l : EzList α} {xs : List α} {index : UInt32}

theorem Represents.nth (h : Represents l xs) (hpos : 0 < index.toNat) :
    l.nth index = xs[index.toNat - 1]? := by
  have hne : index.toNat ≠ 0 := by omega
  rw [EzList.nth, if_neg hne, h.toList]

theorem Represents.toNat_size (h : Represents l xs) (hcounted : xs.length ≤ intMax) :
    (UInt32.ofNat l.size).toNat = xs.length := by
  unfold intMax at hcounted
  rw [h.size, UInt32.toNat_ofNat']
  omega

theorem Represents.walk_front (h : Represents l xs) (hpos : 0 < index.toNat)
    (hin : index.toNat ≤ xs.length) :
    walk (fun x => l.next (some x)) (index - 1).toNat (l.next none) = some (l.nth index) := by
  have hle : (1 : UInt32) ≤ index := UInt32.le_iff_toNat_le.mpr hpos
  have hsteps : (index - 1).toNat = index.toNat - 1 := by
    rw [UInt32.toNat_sub_of_le _ _ hle, UInt32.toNat_one]
  rw [walk_chain h.forward, hsteps, if_pos (by omega), h.nth hpos]

/-- The steps that are walked from the back; below the middle, the difference wraps. -/
theorem Represents.steps_back (h : Represents l xs) (hcounted : xs.length ≤ intMax)
    (hin : index.toNat ≤ xs.length) :
    (index - (UInt32.ofNat l.size - index)).toNat =
      if xs.length ≤ 2 * index.toNat then 2 * index.toNat - xs.length
      else 4294967296 - (xs.length - 2 * index.toNat) := by
  have hsize := h.toNat_size hcounted
  have hrest : (UInt32.ofNat l.size - index).toNat = xs.length - index.toNat := by
    rw [UInt32.toNat_sub_of_le _ _ (UInt32.le_iff_toNat_le.mpr (by omega)), hsize]
  unfold intMax at hcounted
  rw [UInt32.toNat_sub, hrest]
  split <;> omega

/-- From the back, they are counted wrong but for one position. -/
theorem Represents.walk_back (h : Represents l xs) (hcounted : xs.length ≤ intMax)
    (hpos : 0 < index.toNat) (hin : index.toNat ≤ xs.length) :
    walk (fun x => l.prev (some x)) (index - (UInt32.ofNat l.size - index)).toNat (l.prev none) =
      some (l.nth index) ↔ 3 * index.toNat = 2 * xs.length := by
  rw [walk_chain h.backward, h.steps_back hcounted hin, h.nth hpos, List.length_reverse]
  unfold intMax at hcounted
  by_cases hwrap : xs.length ≤ 2 * index.toNat
  · rw [if_pos hwrap, if_pos (by omega), Option.some_inj]
    by_cases hend : index.toNat = xs.length
    · -- one step too far, past the first node
      have hnone : xs.reverse[2 * index.toNat - xs.length]? = none :=
        List.getElem?_eq_none (by rw [List.length_reverse]; omega)
      have hsome : xs[index.toNat - 1]? = some xs[index.toNat - 1] :=
        List.getElem?_eq_getElem (by omega)
      rw [hnone, hsome]
      refine iff_of_false (by simp) ?_
      omega
    · have hplace : xs.reverse[2 * index.toNat - xs.length]? =
          xs[xs.length - 1 - (2 * index.toNat - xs.length)]? :=
        List.getElem?_reverse (by omega)
      rw [hplace, List.getElem?_inj (by omega) h.nodup]
      omega
  · rw [if_neg hwrap, if_neg (by omega)]
    refine iff_of_false (by simp) ?_
    omega

theorem Represents.ezlistGetAt_iff (h : Represents l xs) (hcounted : xs.length ≤ intMax) :
    l.ezlistGetAt index = some (l.nth index) ↔ FoundAt l index := by
  have hsize := h.toNat_size hcounted
  have hhalf : (UInt32.ofNat (l.size >>> 1)).toNat = xs.length / 2 := by
    unfold intMax at hcounted
    rw [h.size, Nat.shiftRight_eq_div_pow, UInt32.toNat_ofNat']
    omega
  unfold EzList.ezlistGetAt FoundAt
  simp only [UInt32.lt_iff_toNat_lt, hsize, hhalf, UInt32.toNat_one]
  by_cases hout : index.toNat < 1 ∨ xs.length < index.toNat
  · have hnth : l.nth index = none := by
      unfold EzList.nth
      rw [h.toList]
      split
      · rfl
      · exact List.getElem?_eq_none (by omega)
    rw [if_pos hout, hnth, h.size]
    refine iff_of_true rfl ?_
    omega
  · have hpos : 0 < index.toNat := by omega
    have hin : index.toNat ≤ xs.length := by omega
    rw [if_neg hout]
    by_cases hfront : index.toNat < xs.length / 2
    · rw [if_pos hfront, h.size]
      exact iff_of_true (h.walk_front hpos hin) (by omega)
    · rw [if_neg hfront, h.walk_back hcounted hpos hin, h.size]
      omega

end Access

/-- A position gives its node exactly outside of the list, in its first half, or at two
thirds of it. -/
theorem ezlist_get_at_iff {node : α → EzNode α} {b : Built α}
    (h : Reach Built.step Proper (.init node) b) (index : UInt32) :
    b.list.ezlistGetAt index = some (b.list.nth index) ↔ FoundAt b.list index := by
  obtain ⟨xs, hinv⟩ := reach_inv h
  exact hinv.represents.ezlistGetAt_iff hinv.counted

end Runs

/-- A list of the nodes 1 to `n`, each added behind the others. -/
def sampleList : Nat → EzList Nat
  | 0 => .ezlistInit fun _ => ⟨none, none⟩
  | n + 1 => (sampleList n).ezlistAddLast (n + 1)

def sampleBuilt : Nat → Built Nat
  | 0 => .init fun _ => ⟨none, none⟩
  | n + 1 => ⟨sampleList (n + 1), (n + 1) :: (sampleBuilt n).added⟩

/-- The first of four nodes. -/
theorem ezlist_get_at_first :
    (sampleBuilt 4).list.ezlistGetAt 1 = some ((sampleBuilt 4).list.nth 1) := by
  have h₁ : Reach Built.step Proper (.init fun _ => ⟨none, none⟩) (sampleBuilt 1) :=
    .next (i := .addLast 1) .start (by decide) rfl
  have h₂ : Reach Built.step Proper (.init fun _ => ⟨none, none⟩) (sampleBuilt 2) :=
    .next (i := .addLast 2) h₁ (by decide) rfl
  have h₃ : Reach Built.step Proper (.init fun _ => ⟨none, none⟩) (sampleBuilt 3) :=
    .next (i := .addLast 3) h₂ (by decide) rfl
  have h₄ : Reach Built.step Proper (.init fun _ => ⟨none, none⟩) (sampleBuilt 4) :=
    .next (i := .addLast 4) h₃ (by decide) rfl
  refine (ezlist_get_at_iff h₄ 1).mpr (.inr (.inr (.inl ?_)))
  decide

/-- The only node of a list is not found: the walk from the back goes past it. -/
theorem single_node_not_found : ¬ ∀ (b : Built Nat) (index : UInt32),
    Reach Built.step Proper (.init fun _ => ⟨none, none⟩) b →
      b.list.ezlistGetAt index = some (b.list.nth index) := by
  intro h
  have hreach : Reach Built.step Proper (.init fun _ => ⟨none, none⟩) (sampleBuilt 1) :=
    .next (i := .addLast 1) .start (by decide) rfl
  have hfound := h (sampleBuilt 1) 1 hreach
  revert hfound
  decide

end EzIot.Ezlist
