import Moonlight.Map.HouseDepot

/-!
# A house is cleared but for what is passed over

What `House::transferToDepot` collects from the items it visits (`gathers_all`) and what the moves make of the list: the
tiles lose what is on it and the inbox gets it (`moves_eq`, `foldl_extract`). The list has one pointer for each piece
that is to be sent of a visited item, though perhaps more than once, and none into what is passed over.
-/

namespace Moonlight

namespace HouseDepot

open RoseTree InboxTransfer

variable {types : WareTypes}

abbrev refsOf (ts : List (RoseTree Article)) : List Nat := keysOf Article.ref ts

/-! ### What is collected -/

/-- A piece that is to be sent is somewhere, with a pointer to it. -/
def Delivery.At (stock : List (RoseTree Article)) (d : Delivery) (r : Nat) : Prop :=
  ∃ u ∈ subtreesOf stock, u.label.ref = r ∧ d.Is u

theorem Delivery.At.mono {stock stock' : List (RoseTree Article)} (hsub : subtreesOf stock ⊆ subtreesOf stock')
    {d : Delivery} {r : Nat} (h : d.At stock r) : d.At stock' r := by
  obtain ⟨u, hu, hr, his⟩ := h
  exact ⟨u, hsub hu, hr, his⟩

/-- The pointers that stay where they are: what is in the pieces that are sent, and an item of which the contents only
are sent. -/
def left (types : WareTypes) (t : RoseTree Article) : List Nat :=
  if isWrapable types t.label then refsOf ((contents t).flatMap children)
  else if isPickupable types t.label then refsOf t.children
  else t.label.ref :: refsOf ((contents t).flatMap children)

/-- What visits have done: `made` out of `items`, with the pointers `due` to the pieces `sent`. -/
structure Gathers (fresh fresh' : Nat) (items made : List (RoseTree Article)) (sent : List Delivery)
    (due stays : List Nat) : Prop where
  mono : fresh ≤ fresh'
  pieces : List.Forall₂ (Delivery.At made) sent due
  once : due.Nodup
  range : ∀ r ∈ due, r ∈ refsOf items ∨ fresh ≤ r ∧ r < fresh'
  refs : ∃ new : List Nat, (refsOf made).Perm (refsOf items ++ new) ∧ new.Nodup ∧ ∀ r ∈ new, fresh ≤ r ∧ r < fresh'
  stays : ∀ r ∈ stays, r ∈ refsOf items ∧ r ∉ due

theorem Gathers.append {f f' f'' : Nat} {items items' made made' : List (RoseTree Article)} {sent sent' : List Delivery}
    {due due' stays stays' : List Nat} (h : Gathers f f' items made sent due stays)
    (h' : Gathers f' f'' items' made' sent' due' stays') (hnodup : (refsOf (items ++ items')).Nodup)
    (hknown : ∀ r ∈ refsOf (items ++ items'), r < f) :
    Gathers f f'' (items ++ items') (made ++ made') (sent ++ sent') (due ++ due') (stays ++ stays') := by
  have happend := keysOf_append Article.ref items items'
  rw [refsOf, happend] at hnodup hknown
  have hdisjoint := List.disjoint_of_nodup_append hnodup
  have hmono := h.mono
  have hmono' := h'.mono
  -- what is collected of the two parts is different
  have hout : ∀ r ∈ refsOf items, r ∉ due' := by
    intro r hr hdue
    have hlt := hknown r (List.mem_append_left _ hr)
    rcases h'.range r hdue with hin | hin
    · exact hdisjoint hr hin
    · omega
  have hout' : ∀ r ∈ refsOf items', r ∉ due := by
    intro r hr hdue
    have hlt := hknown r (List.mem_append_right _ hr)
    rcases h.range r hdue with hin | hin
    · exact hdisjoint hin hr
    · omega
  obtain ⟨new, hperm, hnew, hrange⟩ := h.refs
  obtain ⟨new', hperm', hnew', hrange'⟩ := h'.refs
  refine ⟨hmono.trans hmono', ?_, ?_, ?_, ⟨new ++ new', ?_, ?_, ?_⟩, ?_⟩
  · refine List.rel_append (h.pieces.imp fun d r hat => hat.mono ?_) (h'.pieces.imp fun d r hat => hat.mono ?_)
    · rw [subtreesOf_append]
      exact List.subset_append_left _ _
    · rw [subtreesOf_append]
      exact List.subset_append_right _ _
  · refine List.nodup_append'.mpr ⟨h.once, h'.once, fun r hr hr' => ?_⟩
    rcases h.range r hr with hin | hin
    · exact hout r hin hr'
    · rcases h'.range r hr' with hin' | hin'
      · exact hout' r hin' hr
      · omega
  · intro r hr
    rw [refsOf, happend, List.mem_append]
    rcases List.mem_append.mp hr with hr | hr
    · rcases h.range r hr with hin | hin
      · exact Or.inl (Or.inl hin)
      · exact Or.inr (by omega)
    · rcases h'.range r hr with hin | hin
      · exact Or.inl (Or.inr hin)
      · exact Or.inr (by omega)
  · rw [refsOf, refsOf, happend, keysOf_append]
    refine (hperm.append hperm').trans ?_
    rw [List.append_assoc, List.append_assoc, ← List.append_assoc new, ← List.append_assoc (keysOf Article.ref items')]
    exact (List.perm_append_comm.append_right _).append_left _
  · refine List.nodup_append'.mpr ⟨hnew, hnew', fun r hr hr' => ?_⟩
    have hlt := (hrange r hr).2
    have hle := (hrange' r hr').1
    omega
  · intro r hr
    rcases List.mem_append.mp hr with hr | hr
    · have hin := hrange r hr
      omega
    · have hin := hrange' r hr
      omega
  · intro r hr
    rw [refsOf, happend, List.mem_append, List.mem_append, not_or]
    rcases List.mem_append.mp hr with hr | hr
    · obtain ⟨hin, hnot⟩ := h.stays r hr
      exact ⟨Or.inl hin, hnot, hout r hin⟩
    · obtain ⟨hin, hnot⟩ := h'.stays r hr
      exact ⟨Or.inr hin, hout' r hin, hnot⟩

theorem contents_eq {t : RoseTree Article} (hsound : t.label.isContainer = false → t.children = []) :
    contents t = t.children := by
  rw [contents]
  split
  · rfl
  · next hcontainer => exact (hsound (Bool.eq_false_iff.mpr hcontainer)).symm

theorem pieces_contents {stock items : List (RoseTree Article)} (h : items ⊆ subtreesOf stock) :
    List.Forall₂ (Delivery.At stock) (items.map .good) (items.map fun c => c.label.ref) := by
  rw [List.forall₂_map_left_iff, List.forall₂_map_right_iff]
  exact List.forall₂_same.mpr fun c hc => ⟨c, h hc, rfl, rfl⟩

theorem mem_subtreesOf_cons {t c : RoseTree Article} (h : c ∈ t.children) (items : List (RoseTree Article)) :
    c ∈ subtreesOf (t :: items) := by
  obtain ⟨a, ts⟩ := t
  rw [subtreesOf, subtrees]
  exact List.mem_append_left _ (List.mem_cons_of_mem _ (mem_subtreesOf_of_mem h))

section

variable {t : RoseTree Article} (hnodup : (refsOf [t]).Nodup)

include hnodup

theorem nodup_children : t.label.ref ∉ refsOf t.children ∧ (refsOf t.children).Nodup := by
  rw [refsOf, keysOf_cons, List.nodup_cons, List.mem_append, not_or] at hnodup
  exact ⟨hnodup.1.1, hnodup.2.of_append_left⟩

theorem nodup_contents : (t.children.map fun c => c.label.ref).Nodup := by
  have hsub : (t.children.map fun c => c.label.ref).Sublist (refsOf t.children) := by
    induction t.children with
    | nil => exact List.nil_sublist _
    | cons c cs ih =>
      rw [List.map_cons, refsOf, keysOf_cons]
      exact (ih.trans (List.sublist_append_right _ _)).cons_cons _
  exact hsub.nodup (nodup_children hnodup).2

end

theorem contents_subset {items : List (RoseTree Article)} : (items.map fun c => c.label.ref) ⊆ refsOf items := by
  intro r hr
  obtain ⟨c, hc, rfl⟩ := List.mem_map.mp hr
  exact key_mem_keysOf_of_mem hc

theorem inner_stays {items : List (RoseTree Article)} (hnodup : (refsOf items).Nodup) {r : Nat}
    (hr : r ∈ refsOf (items.flatMap children)) : r ∈ refsOf items ∧ r ∉ items.map fun c => c.label.ref := by
  rw [refsOf, keysOf, labelsOf_eq_flatMap] at hr
  obtain ⟨a, ha, rfl⟩ := List.mem_map.mp hr
  obtain ⟨u, hu, ha⟩ := List.mem_flatMap.mp ha
  obtain ⟨c, hc, hu⟩ := List.mem_flatMap.mp hu
  have hin : a.ref ∈ refsOf c.children := by
    refine List.mem_map_of_mem ?_
    rw [labelsOf_eq_flatMap]
    exact List.mem_flatMap.mpr ⟨u, hu, ha⟩
  refine ⟨keysOf_subset hc ?_, key_ne_of_below hnodup hc hin⟩
  rw [keysOf_cons]
  exact List.mem_cons_of_mem _ (List.mem_append_left _ hin)

/-- **A visit** collects what is to be sent of an item. -/
theorem gathers_item (h : Kits types) {t : RoseTree Article} {fresh : Nat}
    (hsound : t.label.isContainer = false → t.children = [])
    (hcan : isWrapable types t.label = true → t.label.canTransform = true) (hnodup : (refsOf [t]).Nodup)
    (hknown : ∀ r ∈ refsOf [t], r < fresh) :
    Gathers fresh (next types fresh t) [t] (made types fresh t) (deliveries types t) (due types fresh t)
      (left types t) := by
  have hrefs : refsOf [t] = t.label.ref :: refsOf t.children := by
    rw [refsOf, keysOf_cons, keysOf_nil, List.append_nil]
  obtain ⟨hroot, hchildren⟩ := nodup_children hnodup
  have hcontents := nodup_contents hnodup
  have hsub : (t.children.map fun c => c.label.ref) ⊆ refsOf t.children := contents_subset
  rw [next, made, deliveries, due, left, contents_eq hsound]
  by_cases hwrap : isWrapable types t.label = true
  · have hof := wrap_of h fresh hwrap (hcan hwrap)
    rw [if_pos hwrap, if_pos hwrap, if_pos hwrap, if_pos hwrap, if_pos hwrap]
    generalize wrap types fresh t = wrapped at hof
    obtain ⟨kit, anew, replaced⟩ := wrapped
    obtain ⟨hkit, -, hplace⟩ := hof
    dsimp only at hkit hplace ⊢
    have hmem : kit ∈ subtreesOf (kit :: replaced) := mem_subtreesOf_of_mem List.mem_cons_self
    have hlast : List.Forall₂ (Delivery.At (kit :: replaced)) [.kit t.label.item.id] [kit.label.ref] :=
      List.Forall₂.cons ⟨kit, hmem, rfl, hkit⟩ List.Forall₂.nil
    -- the kit has the pointer of the item, or one of its own
    have hpointer : kit.label.ref = t.label.ref ∨ kit.label.ref = fresh := hplace.imp And.left And.left
    have hout : kit.label.ref ∉ refsOf t.children := by
      rcases hpointer with heq | heq
      · rw [heq]
        exact hroot
      · intro hin
        have hlt := hknown kit.label.ref (hrefs ▸ List.mem_cons_of_mem _ hin)
        omega
    have hinside : t.children ⊆ subtreesOf (kit :: replaced) := by
      intro c hc
      rcases hplace with ⟨-, hsame, -⟩ | ⟨-, -, rfl⟩
      · exact mem_subtreesOf_cons (hsame ▸ hc) replaced
      · have hin := mem_subtreesOf_cons hc []
        rw [subtreesOf]
        exact List.mem_append_right _ hin
    refine ⟨Nat.le_succ fresh, List.rel_append (pieces_contents hinside) hlast, ?_, fun r hr => ?_, ?_, fun r hr => ?_⟩
    · refine List.nodup_append'.mpr ⟨hcontents, List.nodup_singleton _, fun r hr hlast => hout ?_⟩
      rw [← List.mem_singleton.mp hlast]
      exact hsub hr
    · rcases List.mem_append.mp hr with hr | hr
      · exact Or.inl (hrefs ▸ List.mem_cons_of_mem _ (hsub hr))
      · rw [List.mem_singleton.mp hr]
        rcases hpointer with heq | heq
        · exact Or.inl (hrefs ▸ heq ▸ List.mem_cons_self)
        · exact Or.inr (by omega)
    · have hkitrefs : refsOf (kit :: replaced) = kit.label.ref :: (refsOf kit.children ++ refsOf replaced) :=
        keysOf_cons Article.ref kit replaced
      rw [hkitrefs]
      rcases hplace with ⟨hsame, hheld, rfl⟩ | ⟨hnew, hheld, rfl⟩
      · refine ⟨[], ?_, List.nodup_nil, fun r hr => absurd hr List.not_mem_nil⟩
        rw [hsame, hheld, hrefs, refsOf, refsOf, keysOf_nil, List.append_nil, List.append_nil]
      · refine ⟨[fresh], ?_, List.nodup_singleton _, fun r hr => ?_⟩
        · rw [hnew, hheld, refsOf, keysOf_nil, List.nil_append]
          exact (List.perm_append_singleton fresh _).symm
        · rw [List.mem_singleton.mp hr]
          exact ⟨Nat.le_refl _, Nat.lt_succ_self _⟩
    · obtain ⟨hin, hnot⟩ := inner_stays hchildren hr
      refine ⟨hrefs ▸ List.mem_cons_of_mem _ hin, fun hmem => ?_⟩
      rcases List.mem_append.mp hmem with hmem | hmem
      · exact hnot hmem
      · exact hout (List.mem_singleton.mp hmem ▸ hin)
  · rw [if_neg hwrap, if_neg hwrap, if_neg hwrap, if_neg hwrap, if_neg hwrap]
    have hsame : ∃ new : List Nat, (refsOf [t]).Perm (refsOf [t] ++ new) ∧ new.Nodup ∧
        ∀ r ∈ new, fresh ≤ r ∧ r < fresh :=
      ⟨[], by rw [List.append_nil], List.nodup_nil, fun r hr => absurd hr List.not_mem_nil⟩
    by_cases hpickup : isPickupable types t.label = true
    · rw [if_pos hpickup, if_pos hpickup, if_pos hpickup]
      refine ⟨Nat.le_refl _, ?_, List.nodup_singleton _, fun r hr => Or.inl ?_, hsame, fun r hr => ?_⟩
      · have hmem : t ∈ subtreesOf [t] := mem_subtreesOf_of_mem List.mem_cons_self
        exact List.Forall₂.cons ⟨t, hmem, rfl, rfl⟩ List.Forall₂.nil
      · rw [List.mem_singleton.mp hr, hrefs]
        exact List.mem_cons_self
      · rw [hrefs]
        refine ⟨List.mem_cons_of_mem _ hr, fun hmem => hroot ?_⟩
        rw [← List.mem_singleton.mp hmem]
        exact hr
    · rw [if_neg hpickup, if_neg hpickup, if_neg hpickup]
      refine ⟨Nat.le_refl _, ?_, hcontents, fun r hr => Or.inl ?_, hsame, fun r hr => ?_⟩
      · exact pieces_contents fun c hc => mem_subtreesOf_cons hc []
      · rw [hrefs]
        exact List.mem_cons_of_mem _ (hsub hr)
      · rw [hrefs]
        rcases List.mem_cons.mp hr with rfl | hr
        · exact ⟨List.mem_cons_self, fun hmem => hroot (hsub hmem)⟩
        · obtain ⟨hin, hnot⟩ := inner_stays hchildren hr
          exact ⟨List.mem_cons_of_mem _ hin, hnot⟩

theorem next_ge (fresh : Nat) (t : RoseTree Article) : fresh ≤ next types fresh t := by
  rw [next]
  split
  · exact Nat.le_succ fresh
  · exact Nat.le_refl fresh

theorem gathers_all (h : Kits types) (items : List (RoseTree Article)) (fresh : Nat)
    (hsound : ∀ t ∈ items, t.label.isContainer = false → t.children = [])
    (hcan : ∀ t ∈ items, isWrapable types t.label = true → t.label.canTransform = true)
    (hnodup : (refsOf items).Nodup) (hknown : ∀ r ∈ refsOf items, r < fresh) :
    Gathers fresh (nextAll types fresh items) items (madeAll types fresh items) (items.flatMap (deliveries types))
      (dueAll types fresh items) (items.flatMap (left types)) := by
  induction items generalizing fresh with
  | nil =>
    refine ⟨Nat.le_refl _, List.Forall₂.nil, List.nodup_nil, nofun, ⟨[], ?_, List.nodup_nil, nofun⟩, nofun⟩
    rw [List.append_nil]
    rfl
  | cons t items ih =>
    rw [List.forall_mem_cons] at hsound hcan
    have hsplit : refsOf (t :: items) = refsOf [t] ++ refsOf items := keysOf_append Article.ref [t] items
    have hnodup' := hsplit ▸ hnodup
    have hknown' := hsplit ▸ hknown
    have hitem := gathers_item h hsound.1 hcan.1 hnodup'.of_append_left fun r hr =>
      hknown' r (List.mem_append_left _ hr)
    have hrest := ih (next types fresh t) hsound.2 hcan.2 hnodup'.of_append_right fun r hr =>
      Nat.lt_of_lt_of_le (hknown' r (List.mem_append_right _ hr)) (next_ge fresh t)
    exact hitem.append hrest hnodup hknown

/-! ### All tiles -/

theorem nextAll_append (fresh : Nat) (items items' : List (RoseTree Article)) :
    nextAll types fresh (items ++ items') = nextAll types (nextAll types fresh items) items' := by
  induction items generalizing fresh with
  | nil => rfl
  | cons t items ih => exact ih (next types fresh t)

theorem dueAll_append (fresh : Nat) (items items' : List (RoseTree Article)) :
    dueAll types fresh (items ++ items') =
      dueAll types fresh items ++ dueAll types (nextAll types fresh items) items' := by
  induction items generalizing fresh with
  | nil => rfl
  | cons t items ih => rw [List.cons_append, dueAll, ih, dueAll, nextAll, List.append_assoc]

theorem madeAll_append (fresh : Nat) (items items' : List (RoseTree Article)) :
    madeAll types fresh (items ++ items') =
      madeAll types fresh items ++ madeAll types (nextAll types fresh items) items' := by
  induction items generalizing fresh with
  | nil => rfl
  | cons t items ih => rw [List.cons_append, madeAll, ih, madeAll, nextAll, List.append_assoc]

/-- What a tile holds when all tiles have been gone through, with the list that there is then. -/
structure Holds (types : WareTypes) (queue : List Nat) (tile items : List (RoseTree Article)) : Prop where
  order : items.filter noKit = (staying types tile.reverse).reverse.filter noKit
  kits : ∀ t ∈ items, t.label.item.id = ITEM_DECORATION_KIT → t.label.ref ∈ queue ∨ t ∈ passedOver types tile.reverse
  kept : ∀ t ∈ passedOver types tile.reverse, t ∈ items

/-- The items of some tiles that are visited, and those that are not. -/
def visitedOf (types : WareTypes) (tiles : List (List (RoseTree Article))) : List (RoseTree Article) :=
  tiles.flatMap fun tile => visited types tile.reverse

def passedOverOf (types : WareTypes) (tiles : List (List (RoseTree Article))) : List (RoseTree Article) :=
  tiles.flatMap fun tile => passedOver types tile.reverse

theorem visitedOf_cons (tile : List (RoseTree Article)) (tiles : List (List (RoseTree Article))) :
    visitedOf types (tile :: tiles) = visited types tile.reverse ++ visitedOf types tiles := List.flatMap_cons

theorem passedOverOf_cons (tile : List (RoseTree Article)) (tiles : List (List (RoseTree Article))) :
    passedOverOf types (tile :: tiles) = passedOver types tile.reverse ++ passedOverOf types tiles := List.flatMap_cons

theorem visitedOf_perm (tiles : List (List (RoseTree Article))) :
    (visitedOf types tiles ++ passedOverOf types tiles).Perm tiles.flatten := by
  induction tiles with
  | nil => exact List.Perm.refl _
  | cons tile tiles ih =>
    have htile := (@visited_perm types tile.reverse).trans (List.reverse_perm tile)
    rw [List.flatten_cons]
    refine List.Perm.trans ?_ (htile.append ih)
    rw [visitedOf_cons, passedOverOf_cons, List.append_assoc, List.append_assoc]
    refine List.Perm.append_left _ ?_
    rw [← List.append_assoc, ← List.append_assoc]
    exact List.perm_append_comm.append_right _

/-- What is collected from all tiles. -/
structure Collects (types : WareTypes) (tiles : List (List (RoseTree Article))) (c : Collected)
    (tiles' : List (List (RoseTree Article))) (c' : Collected) : Prop where
  fresh : c'.fresh = nextAll types c.fresh (visitedOf types tiles)
  queue : ∀ r, r ∈ c'.moveItemList ↔ r ∈ c.moveItemList ∨ r ∈ dueAll types c.fresh (visitedOf types tiles)
  stock : (tiles'.flatten ++ c'.replaced).Perm
    (madeAll types c.fresh (visitedOf types tiles) ++ (passedOverOf types tiles ++ c.replaced))
  tiles : List.Forall₂ (Holds types c'.moveItemList) tiles tiles'

theorem collect_collects (h : Kits types) (tiles : List (List (RoseTree Article))) (c : Collected)
    (hcan : ∀ t ∈ tiles.flatten, isWrapable types t.label = true → t.label.canTransform = true) :
    Collects types tiles c (collect types tiles c).1 (collect types tiles c).2 := by
  induction tiles generalizing c with
  | nil =>
    refine ⟨rfl, fun r => ?_, ?_, List.Forall₂.nil⟩
    · exact (or_iff_left List.not_mem_nil).symm
    · exact List.Perm.refl _
  | cons tile tiles ih =>
    rw [List.flatten_cons, List.forall_mem_append] at hcan
    have hswept := sweep_swept h tile.reverse [] [] { c with items := tile } (by
      rw [List.append_nil, List.append_nil, List.reverse_reverse]) (fun t ht => hcan.1 t (List.mem_reverse.mp ht)) nofun
    rw [List.append_nil, List.length_reverse] at hswept
    rw [collect]
    dsimp only
    generalize sweep types tile.length { c with items := tile } = s at hswept
    obtain ⟨hqueue, hfresh, hstock, horder, hkits, hkept⟩ := hswept
    obtain ⟨hcfresh, hcqueue, hcstock, hctiles⟩ := ih s.toCollected hcan.2
    dsimp only at hqueue hfresh hstock hcfresh hcqueue hcstock
    rw [hfresh] at hcfresh hcqueue hcstock
    refine ⟨?_, fun r => ?_, ?_, List.Forall₂.cons ⟨?_, fun t ht hkit => ?_, fun t ht => ?_⟩ hctiles⟩
    · rw [hcfresh, visitedOf_cons, nextAll_append]
    · rw [hcqueue, hqueue, visitedOf_cons, dueAll_append, List.mem_append, or_assoc]
    · rw [visitedOf_cons, passedOverOf_cons, madeAll_append, List.flatten_cons]
      classical
      refine List.perm_iff_count.mpr fun a => ?_
      have hcount := List.perm_iff_count.mp hstock a
      have hcount' := List.perm_iff_count.mp hcstock a
      simp only [List.count_append, List.count_nil] at hcount hcount' ⊢
      omega
    · rw [horder, List.filter_nil, List.append_nil]
    · refine (hkits t ht hkit).imp (fun hin => (hcqueue _).mpr (Or.inl hin)) fun hin => ?_
      exact hin.resolve_right List.not_mem_nil
    · exact hkept t (Or.inl ht)

/-! ### The moves -/

/-- The inbox accepts what it is asked to take. -/
def Accepts (types : WareTypes) : List Nat → Places → Prop
  | [], _ => True
  | ref :: moveItemList, p =>
    (∀ item, p.find ref = some item → queryAdd types p.inbox item (p.inside ref) = .NOERROR) ∧
      Accepts types moveItemList (internalMoveItem types p ref)

/-- What is outside of the inbox, and what is in it. -/
def Places.both (p : Places) : List (RoseTree Article) × List (RoseTree Article) :=
  (p.tiles.flatten ++ p.replaced, p.inbox.children)

/-- No stack is empty. -/
def Places.Stacks (types : WareTypes) (p : Places) : Prop :=
  ∀ a ∈ labelsOf (p.both.1 ++ p.both.2), (types a.item.id).stackable = true → a.item.count ≠ 0

theorem flatten_map_prunes (f : Article → Option Article) (tiles : List (List (RoseTree Article))) :
    (tiles.map (prunes f)).flatten = prunes f tiles.flatten := by
  induction tiles with
  | nil =>
    rw [List.map_nil, List.flatten_nil, prunes]
  | cons tile tiles ih => rw [List.map_cons, List.flatten_cons, List.flatten_cons, prunes_append, ih]

theorem queryMove_of_accepts (h : Kits types) {inbox item : RoseTree Article} {inside : Bool}
    (hadd : queryAdd types inbox item inside = .NOERROR)
    (hcount : (types item.label.item.id).stackable = true → item.label.item.count ≠ 0) :
    queryMove types inbox item inside = .NOERROR := by
  have hpickup : (types item.label.item.id).pickupable = true := by
    by_contra hnot
    rw [queryAdd, Bool.eq_false_iff.mpr hnot, if_pos (by decide)] at hadd
    cases hadd
  have hmove : (!(types item.label.item.id).moveable) = false := by
    rw [h.moveable _ hpickup]
    rfl
  rw [queryMove, hadd]
  dsimp only
  rw [queryRemove, moveCount, hmove]
  by_cases hstack : (types item.label.item.id).stackable = true
  · have hpos : item.label.item.count.toNat ≠ 0 := fun hzero => hcount hstack (UInt8.toNat.inj hzero)
    rw [if_pos hstack, if_neg (by omega), if_neg Bool.false_ne_true]
  · rw [if_neg hstack, if_neg, if_neg Bool.false_ne_true]
    rintro (hzero | ⟨hstack', -⟩)
    · omega
    · exact hstack hstack'

theorem internalMoveItem_both (h : Kits types) {p : Places} (hstacks : p.Stacks types) {r : Nat}
    (haccept : ∀ item, p.find r = some item → queryAdd types p.inbox item (p.inside r) = .NOERROR) :
    (internalMoveItem types p r).tiles = p.tiles.map (prunes (without Article.ref [r])) ∧
      (internalMoveItem types p r).both = extract Article.ref p.both r := by
  rw [internalMoveItem, extract]
  have hfind : p.find r = subtreeAt Article.ref r (p.both.1 ++ p.both.2) := rfl
  rw [← hfind]
  cases hitem : p.find r with
  | none =>
    have hno : r ∉ refsOf (p.both.1 ++ p.both.2) := subtreeAt_none hitem
    rw [Places.both, refsOf, keysOf_append, keysOf_append, List.mem_append, List.mem_append, not_or, not_or] at hno
    refine ⟨?_, rfl⟩
    have hself : ∀ tile ∈ p.tiles, prunes (without Article.ref [r]) tile = tile := by
      intro tile htile
      refine prunes_without_of_notMem tile fun r' hr' hmem => hno.1.1 ?_
      rw [← List.mem_singleton.mp hmem]
      obtain ⟨a, ha, rfl⟩ := List.mem_map.mp hr'
      rw [labelsOf_eq_flatMap] at ha
      obtain ⟨t, ht, ha⟩ := List.mem_flatMap.mp ha
      rw [keysOf, labelsOf_eq_flatMap]
      exact List.mem_map_of_mem (List.mem_flatMap.mpr ⟨t, List.mem_flatten_of_mem htile ht, ha⟩)
    exact ((List.map_congr_left hself).trans (List.map_id' p.tiles)).symm
  | some item =>
    have hmem := (subtreeAt_some (hfind.symm.trans hitem)).1
    have hmove := queryMove_of_accepts h (haccept item hitem) (hstacks _ (label_mem_of_subtreesOf hmem))
    dsimp only
    rw [hmove]
    refine ⟨rfl, ?_⟩
    rw [Places.both, Places.both, flatten_map_prunes]
    dsimp only
    rw [prunes_append]
    rfl

/-- **The moves**: the tiles lose what is on the list, and the inbox gets it. -/
theorem moves_eq (h : Kits types) (moveItemList : List Nat) {p : Places} (hstacks : p.Stacks types)
    (haccept : Accepts types moveItemList p) :
    (moveItemList.foldl (internalMoveItem types) p).tiles = p.tiles.map (prunes (without Article.ref moveItemList)) ∧
      (moveItemList.foldl (internalMoveItem types) p).both = moveItemList.foldl (extract Article.ref) p.both := by
  induction moveItemList generalizing p with
  | nil =>
    have hself : ∀ tile ∈ p.tiles, prunes (without Article.ref []) tile = tile := fun tile _ =>
      prunes_without_of_notMem tile fun _ _ => List.not_mem_nil
    exact ⟨((List.map_congr_left hself).trans (List.map_id' p.tiles)).symm, rfl⟩
  | cons r moveItemList ih =>
    obtain ⟨htiles, hboth⟩ := internalMoveItem_both h hstacks haccept.1
    have hstacks' : (internalMoveItem types p r).Stacks types := by
      intro a ha
      rw [hboth] at ha
      exact hstacks a (labelsOf_extract_subset Article.ref p.both r ha)
    obtain ⟨htiles', hboth'⟩ := ih hstacks' haccept.2
    rw [List.foldl_cons, List.foldl_cons, htiles', hboth', hboth, htiles, List.map_map]
    refine ⟨List.map_congr_left fun tile _ => ?_, rfl⟩
    exact prunes_without_prunes [r] moveItemList tile

/-! ### From the collection to the inbox -/

theorem labels_madeAll (h : Kits types) (items : List (RoseTree Article)) (fresh : Nat)
    (hcan : ∀ t ∈ items, isWrapable types t.label = true → t.label.canTransform = true) :
    ∀ a ∈ labelsOf (madeAll types fresh items), a.item.id = ITEM_DECORATION_KIT ∨ a ∈ labelsOf items := by
  induction items generalizing fresh with
  | nil => exact fun a ha => Or.inr ha
  | cons t items ih =>
    rw [List.forall_mem_cons] at hcan
    intro a ha
    rw [madeAll, labelsOf_append, List.mem_append] at ha
    rw [labelsOf_cons, List.mem_append]
    rcases ha with ha | ha
    · rw [made] at ha
      split at ha
      · next hwrap =>
        have hof := wrap_of h fresh hwrap (hcan.1 hwrap)
        rw [labelsOf_cons, labels_eq, List.mem_append, List.mem_cons] at ha
        rcases ha with (rfl | ha) | ha
        · exact Or.inl hof.kit.1
        · rcases hof.place with ⟨-, hheld, -⟩ | ⟨-, hheld, -⟩
          · rw [hheld] at ha
            rw [labels_eq]
            exact Or.inr (Or.inl (List.mem_cons_of_mem _ ha))
          · rw [hheld, labelsOf] at ha
            cases ha
        · rcases hof.place with ⟨-, -, hreplaced⟩ | ⟨-, -, hreplaced⟩
          · rw [hreplaced, labelsOf] at ha
            cases ha
          · rw [hreplaced, labelsOf_cons, labelsOf, List.append_nil] at ha
            exact Or.inr (Or.inl ha)
      · rw [labelsOf_cons, labelsOf, List.append_nil] at ha
        exact Or.inr (Or.inl ha)
    · exact (ih (next types fresh t) hcan.2 a ha).imp_right Or.inr

/-- What the whole run has done: `queue` is the list, `stock` everything that there is before the moves, `held` what is
on the tiles then, and `arrived` what has come to the inbox. -/
structure Outcome (house : House types) (queue : List Nat) (stock : List (RoseTree Article))
    (held : List (List (RoseTree Article))) (arrived : List (RoseTree Article)) (moved : Places) : Prop where
  gathers : Gathers house.fresh (nextAll types house.fresh (visitedOf types house.tiles)) (visitedOf types house.tiles)
    (madeAll types house.fresh (visitedOf types house.tiles))
    ((visitedOf types house.tiles).flatMap (deliveries types))
    (dueAll types house.fresh (visitedOf types house.tiles)) ((visitedOf types house.tiles).flatMap (left types))
  listed : ∀ r, r ∈ queue ↔ r ∈ dueAll types house.fresh (visitedOf types house.tiles)
  holds : List.Forall₂ (Holds types queue) house.tiles held
  tiles : moved.tiles = held.map (prunes (without Article.ref queue))
  once : (refsOf stock).Nodup
  made : subtreesOf (madeAll types house.fresh (visitedOf types house.tiles)) ⊆ subtreesOf stock
  inbox : moved.inbox.children.Perm (arrived ++ house.inbox.children)
  keys : (dueAll types house.fresh (visitedOf types house.tiles)).Perm (arrived.map fun t => t.label.ref)
  same : ∀ t ∈ arrived, ∃ u ∈ subtreesOf stock, ∃ p, p ⊆ queue ∧ u.prune (without Article.ref p) = some t

variable (house : House types)

theorem mem_tiles : ∀ t ∈ visitedOf types house.tiles ++ passedOverOf types house.tiles, t ∈ house.tiles.flatten :=
  fun _ ht => (visitedOf_perm house.tiles).subset ht

theorem refs_perm : (refsOf (visitedOf types house.tiles) ++ refsOf (passedOverOf types house.tiles)).Perm
    (refsOf house.tiles.flatten) := by
  rw [refsOf, refsOf, ← keysOf_append]
  exact keysOf_perm_of_perm (visitedOf_perm house.tiles)

theorem house_refs : (refsOf house.tiles.flatten ++ refsOf house.inbox.children).Nodup ∧
    ∀ r ∈ refsOf house.tiles.flatten ++ refsOf house.inbox.children, r < house.fresh := by
  have hrefs := house.refs
  have hknown := house.known
  rw [keysOf_append] at hrefs hknown
  exact ⟨hrefs, hknown⟩

theorem gathers_house (h : Kits types) :
    Gathers house.fresh (nextAll types house.fresh (visitedOf types house.tiles)) (visitedOf types house.tiles)
      (madeAll types house.fresh (visitedOf types house.tiles))
      ((visitedOf types house.tiles).flatMap (deliveries types))
      (dueAll types house.fresh (visitedOf types house.tiles))
      ((visitedOf types house.tiles).flatMap (left types)) := by
  obtain ⟨hrefs, hknown⟩ := house_refs house
  have hperm := refs_perm house
  have hmem (t : RoseTree Article) (ht : t ∈ visitedOf types house.tiles) : t ∈ house.tiles.flatten :=
    mem_tiles house t (List.mem_append_left _ ht)
  refine gathers_all h _ _ (fun t ht => house.sound t (hmem t ht)) (fun t ht => house.transformable t (hmem t ht)) ?_ ?_
  · exact (hperm.nodup_iff.mpr hrefs.of_append_left).of_append_left
  · intro r hr
    exact hknown r (List.mem_append_left _ (hperm.subset (List.mem_append_left _ hr)))

theorem subtreesOf_subset {ts us : List (RoseTree Article)} (h : ts ⊆ us) : subtreesOf ts ⊆ subtreesOf us := by
  induction ts with
  | nil =>
    rw [subtreesOf]
    exact List.nil_subset _
  | cons t ts ih =>
    rw [List.cons_subset] at h
    rw [subtreesOf, List.append_subset]
    exact ⟨subtrees_subset_of_subtreesOf (mem_subtreesOf_of_mem h.1), ih h.2⟩

theorem exists_of_mem_due {stock : List (RoseTree Article)} {sent : List Delivery} {due : List Nat}
    (h : List.Forall₂ (Delivery.At stock) sent due) {r : Nat} (hr : r ∈ due) : ∃ d ∈ sent, d.At stock r := by
  induction h with
  | nil => cases hr
  | cons hat _ ih =>
    rcases List.mem_cons.mp hr with rfl | hr
    · exact ⟨_, List.mem_cons_self, hat⟩
    · obtain ⟨d, hd, hat⟩ := ih hr
      exact ⟨d, List.mem_cons_of_mem _ hd, hat⟩

theorem mem_due_of_good {stock : List (RoseTree Article)} {sent : List Delivery} {due : List Nat}
    (h : List.Forall₂ (Delivery.At stock) sent due) {g : RoseTree Article} (hg : .good g ∈ sent) :
    g.label.ref ∈ due := by
  induction h with
  | nil => cases hg
  | cons hat _ ih =>
    rcases List.mem_cons.mp hg with rfl | hg
    · obtain ⟨u, -, hr, his⟩ := hat
      rw [← his, hr]
      exact List.mem_cons_self
    · exact List.mem_cons_of_mem _ (ih hg)

theorem outcome (h : Kits types) (haccept : Accepts types house.collected.2.moveItemList house.places) :
    ∃ arrived, Outcome house house.collected.2.moveItemList (house.places.both.1 ++ house.places.both.2)
      house.collected.1 arrived (house.collected.2.moveItemList.foldl (internalMoveItem types) house.places) := by
  have hgathers := gathers_house house h
  obtain ⟨hrefs, hknown⟩ := house_refs house
  have hparts := refs_perm house
  obtain ⟨-, hqueue, hstock, hholds⟩ := collect_collects h house.tiles
    { replaced := [], moveItemList := [], fresh := house.fresh } house.transformable
  change (house.places.both.1).Perm _ at hstock
  rw [List.append_nil] at hstock
  have hlisted (r : Nat) : r ∈ house.collected.2.moveItemList ↔
      r ∈ dueAll types house.fresh (visitedOf types house.tiles) :=
    (hqueue r).trans (or_iff_right List.not_mem_nil)
  -- the stock: what has been made, what was passed over, and the inbox
  have hall := hstock.append_right house.places.both.2
  obtain ⟨new, hmade, hnew, hrange⟩ := hgathers.refs
  have hstockrefs : (refsOf (house.places.both.1 ++ house.places.both.2)).Perm
      (new ++ (refsOf house.tiles.flatten ++ refsOf house.inbox.children)) := by
    refine (keysOf_perm_of_perm hall).trans ?_
    rw [keysOf_append, keysOf_append, ← List.append_assoc]
    refine List.Perm.append_right _ ((hmade.append_right _).trans ?_)
    refine List.Perm.trans ?_ (hparts.append_left new)
    rw [← List.append_assoc]
    exact List.perm_append_comm.append_right _
  have honce : (refsOf (house.places.both.1 ++ house.places.both.2)).Nodup := by
    refine hstockrefs.nodup_iff.mpr (List.nodup_append'.mpr ⟨hnew, hrefs, fun r hr hr' => ?_⟩)
    have hge := (hrange r hr).1
    have hlt := hknown r hr'
    omega
  have hstacks : house.places.Stacks types := by
    intro a ha hstackable
    rw [labelsOf_eq_flatMap, (hall.flatMap_right labels).mem_iff, ← labelsOf_eq_flatMap, labelsOf_append,
      labelsOf_append, List.mem_append, List.mem_append] at ha
    have hcounts := house.counts a
    have hlabels (t : List (RoseTree Article)) (ht : ∀ u ∈ t, u ∈ house.tiles.flatten) (hin : a ∈ labelsOf t) :
        a ∈ labelsOf (house.tiles.flatten ++ house.inbox.children) := by
      rw [labelsOf_eq_flatMap] at hin ⊢
      obtain ⟨u, hu, hin⟩ := List.mem_flatMap.mp hin
      exact List.mem_flatMap.mpr ⟨u, List.mem_append_left _ (ht u hu), hin⟩
    rcases ha with (ha | ha) | ha
    · have hcan (t : RoseTree Article) (ht : t ∈ visitedOf types house.tiles) :=
        house.transformable t (mem_tiles house t (List.mem_append_left _ ht))
      rcases labels_madeAll h _ _ hcan a ha with hkit | hin
      · rw [hkit, h.single] at hstackable
        exact absurd hstackable Bool.false_ne_true
      · exact hcounts (hlabels _ (fun u hu => mem_tiles house u (List.mem_append_left _ hu)) hin) hstackable
    · exact hcounts (hlabels _ (fun u hu => mem_tiles house u (List.mem_append_right _ hu)) ha) hstackable
    · refine hcounts ?_ hstackable
      rw [labelsOf_append]
      exact List.mem_append_right _ ha
  obtain ⟨htiles, hboth⟩ := moves_eq h house.collected.2.moveItemList hstacks haccept
  obtain ⟨arrived, hleft, hright, hunique, hkeys, hsame⟩ := foldl_extract house.collected.2.moveItemList
    house.places.both honce
  rw [← hboth] at hright
  have hsub : subtreesOf (madeAll types house.fresh (visitedOf types house.tiles)) ⊆
      subtreesOf (house.places.both.1 ++ house.places.both.2) :=
    subtreesOf_subset fun t ht => hall.symm.subset (List.mem_append_left _ (List.mem_append_left _ ht))
  refine ⟨arrived, hgathers, hlisted, hholds, htiles, honce, hsub, ?_, ?_, hsame⟩
  · -- nothing on the list was in the inbox
    have hself : prunes (without Article.ref house.collected.2.moveItemList) house.inbox.children =
        house.inbox.children := by
      refine prunes_without_of_notMem _ fun r hr hmem => ?_
      rcases hgathers.range r ((hlisted r).mp hmem) with hin | hin
      · have htile := hparts.subset (List.mem_append_left _ hin)
        exact List.disjoint_of_nodup_append hrefs htile hr
      · have hlt := hknown r (List.mem_append_right _ hr)
        omega
    change (Places.inbox _).children.Perm (arrived ++ prunes _ house.inbox.children) at hright
    rw [hself] at hright
    exact hright
  · refine (List.perm_ext_iff_of_nodup hgathers.once hunique).mpr fun r => ?_
    rw [hkeys r, hlisted r]
    refine (and_iff_left_of_imp fun hr => ?_).symm
    -- a piece that is due is somewhere
    obtain ⟨d, -, u, hu, hur, -⟩ := exists_of_mem_due hgathers.pieces hr
    rw [← hur]
    exact key_mem_keysOf (hsub hu)

/-! ### What is left, and what has come -/

theorem deliveries_nil {t : RoseTree Article} (hnone : deliveries types t = []) :
    isWrapable types t.label = false ∧ isPickupable types t.label = false ∧ contents t = [] := by
  rw [deliveries] at hnone
  split at hnone
  · cases (List.append_eq_nil_iff.mp hnone).2
  · next hwrap =>
    split at hnone
    · cases hnone
    · next hpickup =>
      exact ⟨Bool.eq_false_iff.mpr hwrap, Bool.eq_false_iff.mpr hpickup, List.map_eq_nil_iff.mp hnone⟩

theorem deliveries_of_remains {t : RoseTree Article} (h : remains types t = some t) : deliveries types t = [] := by
  rw [remains] at h
  split at h
  · cases h
  · next hstays =>
    have hfalse : (isWrapable types t.label || isPickupable types t.label) = false := Bool.eq_false_iff.mpr hstays
    obtain ⟨hwrap, hpickup⟩ := Bool.or_eq_false_iff.mp hfalse
    rw [deliveries, hwrap, hpickup, if_neg Bool.false_ne_true, if_neg Bool.false_ne_true, List.map_eq_nil_iff, contents]
    split at h
    · next hcontainer =>
      rw [if_pos hcontainer, ← Option.some.inj h]
      rfl
    · next hcontainer => exact if_neg hcontainer

theorem remains_of_deliveries {t : RoseTree Article} (hnone : deliveries types t = []) : remains types t = some t := by
  obtain ⟨hwrap, hpickup, hempty⟩ := deliveries_nil hnone
  rw [remains, hwrap, hpickup, if_neg (by decide)]
  split
  · next hcontainer =>
    rw [contents, if_pos hcontainer] at hempty
    rw [← hempty]
    obtain ⟨a, ts⟩ := t
    rfl
  · rfl

theorem remains_label {t u : RoseTree Article} (h : remains types t = some u) : u.label = t.label := by
  rw [remains] at h
  split at h
  · cases h
  · split at h
    · rw [← Option.some.inj h]
      rfl
    · rw [← Option.some.inj h]

theorem filterMap_filter_of {α β : Type} {p : α → Bool} {f : α → Option β} {l : List α}
    (h : ∀ a ∈ l, p a = false → f a = none) : (l.filter p).filterMap f = l.filterMap f := by
  rw [List.filterMap_filter]
  refine List.filterMap_congr fun a ha => ?_
  cases hp : p a with
  | true => rfl
  | false => exact (h a ha hp).symm

theorem prune_eq_remains {queue : List Nat} {t : RoseTree Article} (hwrap : isWrapable types t.label = false)
    (hpickup : isPickupable types t.label = false) (hsound : t.label.isContainer = false → t.children = [])
    (hstays : t.label.ref ∉ queue) (hgo : ∀ c ∈ t.children, c.label.ref ∈ queue) :
    t.prune (without Article.ref queue) = remains types t := by
  obtain ⟨a, ts⟩ := t
  have hsome : without Article.ref queue a = some a := if_neg hstays
  have hnone : prunes (without Article.ref queue) ts = [] := by
    rw [prunes_eq_filterMap]
    exact List.filterMap_eq_nil_iff.mpr fun c hc => prune_without_of_mem (hgo c hc)
  rw [prune, hsome, hnone, remains, hwrap, hpickup, if_neg (by decide)]
  split
  · rfl
  · next hcontainer =>
    have hempty : ts = [] := hsound (Bool.eq_false_iff.mpr hcontainer)
    rw [hempty]
    rfl

theorem forall₂_trans_of_mem {α β γ : Type} {R : α → β → Prop} {S : β → γ → Prop} {T : α → γ → Prop} {l : List α}
    {m : List β} {n : List γ} (h : ∀ a ∈ l, ∀ b, ∀ c ∈ n, R a b → S b c → T a c) (hR : List.Forall₂ R l m)
    (hS : List.Forall₂ S m n) : List.Forall₂ T l n := by
  induction hR generalizing n with
  | nil =>
    cases hS
    exact List.Forall₂.nil
  | cons hab _ ih =>
    cases hS with
    | cons hbc hrest =>
      refine List.Forall₂.cons (h _ List.mem_cons_self _ _ List.mem_cons_self hab hbc) (ih ?_ hrest)
      exact fun a ha b c hc => h a (List.mem_cons_of_mem _ ha) b c (List.mem_cons_of_mem _ hc)

theorem good_left {t g : RoseTree Article} (h : .good g ∈ deliveries types t) : refsOf g.children ⊆ left types t := by
  have hcontents (hg : g ∈ contents t) : refsOf g.children ⊆ refsOf ((contents t).flatMap children) := by
    intro r hr
    obtain ⟨a, ha, rfl⟩ := List.mem_map.mp hr
    rw [labelsOf_eq_flatMap] at ha
    obtain ⟨u, hu, ha⟩ := List.mem_flatMap.mp ha
    rw [refsOf, keysOf, labelsOf_eq_flatMap]
    exact List.mem_map_of_mem (List.mem_flatMap.mpr ⟨u, List.mem_flatMap.mpr ⟨g, hg, hu⟩, ha⟩)
  rw [deliveries] at h
  rw [left]
  split at h
  · next hwrap =>
    rw [if_pos hwrap]
    rcases List.mem_append.mp h with h | h
    · obtain ⟨c, hc, heq⟩ := List.mem_map.mp h
      exact hcontents (Delivery.good.inj heq ▸ hc)
    · cases List.mem_singleton.mp h
  · next hwrap =>
    rw [if_neg hwrap]
    split at h
    · next hpickup =>
      rw [if_pos hpickup, Delivery.good.inj (List.mem_singleton.mp h)]
      exact List.Subset.refl _
    · next hpickup =>
      obtain ⟨c, hc, heq⟩ := List.mem_map.mp h
      rw [if_neg hpickup]
      exact List.Subset.trans (hcontents (Delivery.good.inj heq ▸ hc)) (List.subset_cons_self _ _)

section

variable {house} {queue : List Nat} {stock arrived : List (RoseTree Article)} {held : List (List (RoseTree Article))}
  {moved : Places} (O : Outcome house queue stock held arrived moved)

include O

theorem passed_notMem {r : Nat} (hr : r ∈ refsOf (passedOverOf types house.tiles)) : r ∉ queue := by
  obtain ⟨hrefs, hknown⟩ := house_refs house
  have hparts := refs_perm house
  intro hmem
  rcases O.gathers.range r ((O.listed r).mp hmem) with hin | hin
  · exact List.disjoint_of_nodup_append (hparts.nodup_iff.mpr hrefs.of_append_left) hin hr
  · have hlt := hknown r (List.mem_append_left _ (hparts.subset (List.mem_append_right _ hr)))
    omega

theorem listed_of_good {t g : RoseTree Article} (ht : t ∈ visitedOf types house.tiles)
    (hg : .good g ∈ deliveries types t) : g.label.ref ∈ queue := by
  have hsent : .good g ∈ (visitedOf types house.tiles).flatMap (deliveries types) := List.mem_flatMap.mpr ⟨t, ht, hg⟩
  exact (O.listed _).mpr (mem_due_of_good O.gathers.pieces hsent)

theorem prune_visited {t : RoseTree Article} (ht : t ∈ visitedOf types house.tiles)
    (hwrap : isWrapable types t.label = false) : t.prune (without Article.ref queue) = remains types t := by
  have hsound := house.sound t (mem_tiles house t (List.mem_append_left _ ht))
  by_cases hpickup : isPickupable types t.label = true
  · have hmem : t.label.ref ∈ queue := by
      refine listed_of_good O ht ?_
      rw [deliveries, hwrap, if_neg Bool.false_ne_true, if_pos hpickup]
      exact List.mem_cons_self
    rw [prune_without_of_mem hmem, remains, hpickup, Bool.or_true, if_pos rfl]
  · refine prune_eq_remains hwrap (Bool.eq_false_iff.mpr hpickup) hsound (fun hmem => ?_) fun c hc => ?_
    · have hleft : t.label.ref ∈ (visitedOf types house.tiles).flatMap (left types) := by
        refine List.mem_flatMap.mpr ⟨t, ht, ?_⟩
        rw [left, hwrap, if_neg Bool.false_ne_true, if_neg hpickup]
        exact List.mem_cons_self
      exact (O.gathers.stays _ hleft).2 ((O.listed _).mp hmem)
    · refine listed_of_good O ht ?_
      rw [deliveries, hwrap, if_neg Bool.false_ne_true, if_neg hpickup, contents_eq hsound]
      exact List.mem_map_of_mem hc

theorem passed_prune {t : RoseTree Article} (ht : t ∈ passedOverOf types house.tiles) :
    t.prune (without Article.ref queue) = some t := by
  refine prune_without_of_notMem t fun a ha => passed_notMem O ?_
  refine keysOf_subset ht (List.mem_map_of_mem ?_)
  rw [labelsOf_cons]
  exact List.mem_append_left _ ha

theorem passed_remains {t : RoseTree Article} (ht : t ∈ passedOverOf types house.tiles)
    (hnone : deliveries types t = []) : t.prune (without Article.ref queue) = remains types t := by
  obtain ⟨hwrap, hpickup, hempty⟩ := deliveries_nil hnone
  have hsound := house.sound t (mem_tiles house t (List.mem_append_right _ ht))
  rw [contents_eq hsound] at hempty
  refine prune_eq_remains hwrap hpickup hsound (fun hmem => passed_notMem O (key_mem_keysOf_of_mem ht) hmem) ?_
  rw [hempty]
  exact nofun

/-- **A tile** is as it should be, if there is nothing to send of what is passed over. -/
theorem tile_remains (h : Kits types) (hnone : ∀ t ∈ passedOverOf types house.tiles, deliveries types t = [])
    {tile items : List (RoseTree Article)} (htile : tile ∈ house.tiles) (hholds : Holds types queue tile items) :
    prunes (without Article.ref queue) items = tile.filterMap (remains types) := by
  have hvisited (t : RoseTree Article) (ht : t ∈ visited types tile.reverse) : t ∈ visitedOf types house.tiles :=
    List.mem_flatMap.mpr ⟨tile, htile, ht⟩
  have hpassed (t : RoseTree Article) (ht : t ∈ passedOver types tile.reverse) : t ∈ passedOverOf types house.tiles :=
    List.mem_flatMap.mpr ⟨tile, htile, ht⟩
  -- kits go, from the items of the tile and from those that are there now
  have hkit (t : RoseTree Article) (hid : t.label.item.id = ITEM_DECORATION_KIT) :
      isPickupable types t.label = true := by
    rw [isPickupable, hid, h.pickupable]
  have hgone : ∀ t ∈ items, noKit t = false → t.prune (without Article.ref queue) = none := by
    intro t ht hno
    have hid : t.label.item.id = ITEM_DECORATION_KIT := bne_eq_false_iff_eq.mp hno
    refine prune_without_of_mem ((hholds.kits t ht hid).resolve_right fun hin => ?_)
    have hno := (deliveries_nil (hnone t (hpassed t hin))).2.1
    exact Bool.false_ne_true (hno.symm.trans (hkit t hid))
  have hstays : ∀ t ∈ staying types tile.reverse, t.prune (without Article.ref queue) = remains types t := by
    intro t ht
    rcases mem_staying tile.reverse ht with ⟨hin, hwrap⟩ | hin
    · exact prune_visited O (hvisited t hin) hwrap
    · exact passed_remains O (hpassed t hin) (hnone t (hpassed t hin))
  have hwrapable : ∀ t ∈ tile.reverse, isWrapable types t.label = true → remains types t = none := by
    intro t _ hwrap
    rw [remains, hwrap, Bool.true_or, if_pos rfl]
  calc prunes (without Article.ref queue) items
      = (items.filter noKit).filterMap (prune (without Article.ref queue)) := by
        rw [prunes_eq_filterMap, filterMap_filter_of hgone]
    _ = ((staying types tile.reverse).reverse.filter noKit).filterMap (remains types) := by
        rw [hholds.order]
        refine List.filterMap_congr fun t ht => hstays t ?_
        exact List.mem_reverse.mp (List.mem_filter.mp ht).1
    _ = (staying types tile.reverse).reverse.filterMap (remains types) := by
        refine filterMap_filter_of fun t _ hno => ?_
        rw [remains, hkit t (bne_eq_false_iff_eq.mp hno), Bool.or_true, if_pos rfl]
    _ = tile.filterMap (remains types) := by
        rw [List.filterMap_reverse, filterMap_staying (remains types) tile.reverse hwrapable, List.filterMap_reverse,
          List.reverse_reverse]

/-- **What has come** is what was collected. -/
theorem arrived_is {d : Delivery} (hd : d ∈ (visitedOf types house.tiles).flatMap (deliveries types)) {r : Nat}
    {t : RoseTree Article} (ht : t ∈ arrived)
    (hat : d.At (madeAll types house.fresh (visitedOf types house.tiles)) r) (hr : t.label.ref = r) : d.Is t := by
  obtain ⟨u, hu, hur, his⟩ := hat
  obtain ⟨u', hu', p, hp, hprune⟩ := O.same t ht
  obtain ⟨hstays, htree⟩ := prune_without_some hprune
  have hlabel : t.label = u'.label := by
    rw [htree]
    rfl
  obtain rfl : u = u' := by
    refine eq_of_key O.once (O.made hu) hu' ?_
    rw [hur, ← hr, hlabel]
  cases d with
  | kit id =>
    rw [Delivery.Is, hlabel]
    exact his
  | good g =>
    obtain rfl : u = g := his
    -- what is in a piece is not on the list
    have hinside : ∀ r ∈ refsOf u.children, r ∉ p := by
      intro r' hr' hmem
      obtain ⟨v, hv, hgood⟩ := List.mem_flatMap.mp hd
      have hsound := house.sound v (mem_tiles house v (List.mem_append_left _ hv))
      have hleft : r' ∈ (visitedOf types house.tiles).flatMap (left types) :=
        List.mem_flatMap.mpr ⟨v, hv, good_left hgood hr'⟩
      exact (O.gathers.stays r' hleft).2 ((O.listed r').mp (hp hmem))
    rw [prunes_without_of_notMem u.children hinside] at htree
    obtain ⟨a, ts⟩ := u
    exact htree

theorem inbox_is (hnone : ∀ t ∈ passedOverOf types house.tiles, deliveries types t = []) :
    ∃ arrived', List.Forall₂ Delivery.Is (house.tiles.flatten.flatMap (deliveries types)) arrived' ∧
      moved.inbox.children.Perm (arrived' ++ house.inbox.children) := by
  obtain ⟨aligned, hperm, halign⟩ := exists_aligned O.keys
  have his : List.Forall₂ Delivery.Is ((visitedOf types house.tiles).flatMap (deliveries types)) aligned := by
    refine forall₂_trans_of_mem (fun d hd r t ht hat hr => ?_) O.gathers.pieces halign
    exact arrived_is O hd (hperm.subset ht) hat hr
  have hall : (house.tiles.flatten.flatMap (deliveries types)).Perm
      ((visitedOf types house.tiles).flatMap (deliveries types)) := by
    have hperm := ((@visitedOf_perm types house.tiles).flatMap_right (deliveries types)).symm
    rw [List.flatMap_append, List.flatMap_eq_nil_iff.mpr hnone, List.append_nil] at hperm
    exact hperm
  obtain ⟨arrived', his', hperm'⟩ := List.perm_comp_forall₂ hall his
  exact ⟨arrived', his', O.inbox.trans ((hperm'.trans hperm).symm.append_right _)⟩

end

/-! ### The result -/

theorem map_eq_map {α β γ : Type} {R : α → β → Prop} {f : α → γ} {g : β → γ} {l : List α} {m : List β}
    (h : List.Forall₂ R l m) (heq : ∀ a ∈ l, ∀ b, R a b → g b = f a) : m.map g = l.map f := by
  induction h with
  | nil => rfl
  | cons hab _ ih =>
    rw [List.map_cons, List.map_cons, heq _ List.mem_cons_self _ hab,
      ih fun a ha b hab => heq a (List.mem_cons_of_mem _ ha) b hab]

theorem exists_of_map_eq_map {α β γ : Type} {R : α → β → Prop} {f : α → γ} {g : β → γ} {l : List α} {m : List β}
    (h : List.Forall₂ R l m) (heq : m.map g = l.map f) : ∀ a ∈ l, ∃ b, R a b ∧ g b = f a := by
  induction h with
  | nil => exact nofun
  | cons hab _ ih =>
    rw [List.map_cons, List.map_cons, List.cons.injEq] at heq
    rw [List.forall_mem_cons]
    exact ⟨⟨_, hab, heq.1⟩, ih heq.2⟩

variable {house}

theorem deliveries_of_mem_remains {tile : List (RoseTree Article)} (htile : tile ∈ house.tiles) {t : RoseTree Article}
    (ht : t ∈ tile) (hmem : t ∈ tile.filterMap (remains types)) : deliveries types t = [] := by
  obtain ⟨u, hu, hremains⟩ := List.mem_filterMap.mp hmem
  have hsub (v : RoseTree Article) (hv : v ∈ tile) : v ∈ subtreesOf house.tiles.flatten :=
    mem_subtreesOf_of_mem (List.mem_flatten_of_mem htile hv)
  have hlabel := remains_label hremains
  obtain rfl : t = u := by
    refine eq_of_key (house_refs house).1.of_append_left (hsub t ht) (hsub u hu) ?_
    rw [hlabel]
  exact deliveries_of_remains hremains

theorem deliveries_of_cleared (h : Kits types) (haccept : Accepts types house.collected.2.moveItemList house.places)
    (hguard : ¬ (house.townId = 0 ∨ house.owner = 0))
    (hcleared : Cleared types house house.transferToDepot.2.1 house.transferToDepot.2.2) :
    ∀ tile ∈ house.tiles, ∀ t ∈ passedOver types tile.reverse, deliveries types t = [] := by
  intro tile htile t ht
  obtain ⟨arrived, O⟩ := outcome house h haccept
  have htiles := hcleared.tiles
  rw [House.transferToDepot, if_neg hguard] at htiles
  dsimp only at htiles
  rw [O.tiles] at htiles
  obtain ⟨items, hholds, heq⟩ := exists_of_map_eq_map O.holds htiles tile htile
  have hin : t ∈ passedOverOf types house.tiles := List.mem_flatMap.mpr ⟨tile, htile, ht⟩
  have hmem : t ∈ tile := List.mem_reverse.mp ((visited_perm tile.reverse).subset (List.mem_append_right _ ht))
  refine deliveries_of_mem_remains htile hmem ?_
  rw [← heq, prunes_eq_filterMap]
  exact List.mem_filterMap.mpr ⟨t, hholds.kept t ht, passed_prune O hin⟩

/-- **A house is cleared** if and only if there is nothing to send of what is passed over, and someone to send it to. -/
theorem transferToDepot_iff (h : Kits types) (haccept : Accepts types house.collected.2.moveItemList house.places) :
    Cleared types house house.transferToDepot.2.1 house.transferToDepot.2.2 ↔
      ((house.townId ≠ 0 ∧ house.owner ≠ 0) ∨ ∀ t ∈ house.tiles.flatten, deliveries types t = []) ∧
        ∀ tile ∈ house.tiles, ∀ t ∈ passedOver types tile.reverse, deliveries types t = [] := by
  by_cases hguard : house.townId = 0 ∨ house.owner = 0
  · have hnobody : ¬ (house.townId ≠ 0 ∧ house.owner ≠ 0) := fun hboth => hguard.elim hboth.1 hboth.2
    rw [House.transferToDepot, if_pos hguard, or_iff_right hnobody]
    constructor
    · rintro ⟨htiles, -⟩
      have hnothing : ∀ tile ∈ house.tiles, ∀ t ∈ tile, deliveries types t = [] := by
        intro tile htile t ht
        have hself := exists_of_map_eq_map (List.forall₂_same.mpr fun tile _ => @rfl _ tile)
          ((List.map_id' house.tiles).trans htiles) tile htile
        obtain ⟨_, rfl, heq⟩ := hself
        exact deliveries_of_mem_remains htile ht (heq ▸ ht)
      refine ⟨fun t ht => ?_, fun tile htile t ht => hnothing tile htile t ?_⟩
      · obtain ⟨tile, htile, hin⟩ := List.mem_flatten.mp ht
        exact hnothing tile htile t hin
      · exact List.mem_reverse.mp ((visited_perm tile.reverse).subset (List.mem_append_right _ ht))
    · rintro ⟨hnothing, -⟩
      refine ⟨?_, [], ?_, ?_⟩
      · refine ((List.map_congr_left fun tile htile => ?_).trans (List.map_id' house.tiles)).symm
        have hself : ∀ t ∈ tile, remains types t = some t := fun t ht =>
          remains_of_deliveries (hnothing t (List.mem_flatten_of_mem htile ht))
        rw [List.filterMap_congr hself, List.filterMap_some]
      · rw [List.flatMap_eq_nil_iff.mpr hnothing]
        exact List.Forall₂.nil
      · rw [List.nil_append]
  · obtain ⟨htown, howner⟩ := not_or.mp hguard
    obtain ⟨arrived, O⟩ := outcome house h haccept
    rw [and_iff_right (Or.inl ⟨htown, howner⟩)]
    refine ⟨deliveries_of_cleared h haccept hguard, fun hnone => ?_⟩
    · have hnone' : ∀ t ∈ passedOverOf types house.tiles, deliveries types t = [] := by
        intro t ht
        obtain ⟨tile, htile, hin⟩ := List.mem_flatMap.mp ht
        exact hnone tile htile t hin
      rw [House.transferToDepot, if_neg hguard]
      refine ⟨?_, inbox_is O hnone'⟩
      dsimp only
      rw [O.tiles]
      exact map_eq_map O.holds fun tile htile items hholds => tile_remains O h hnone' htile hholds

/-! ### A lamp and a carpet -/

def CARPET : UInt16 := 23715

def houseTypes : WareTypes := fun id =>
  if id = CARPET then
    { id, type := .CARPET, alwaysOnTop := true, alwaysOnTopOrder := 1, wrapable := true }
  else { id, pickupable := true, moveable := true }

theorem houseTypes_kits : Kits houseTypes where
  known := by decide
  created := by decide
  other id h := by
    by_cases hid : id = CARPET
    · rw [hid]
      decide
    · rw [houseTypes, if_neg hid] at h
      cases h
  below := by decide
  pickupable := by decide
  single := by decide
  moveable id h := by
    by_cases hid : id = CARPET
    · rw [houseTypes, if_pos hid] at h
      cases h
    · rw [houseTypes, if_neg hid]

def lamp : RoseTree Article := .node { item := { id := 2914 }, ref := 1 } []

def carpet : RoseTree Article := .node { item := { id := CARPET }, ref := 2 } []

def kit : RoseTree Article := (wrap houseTypes 3 carpet).newItem

def inboxWith (items : List (RoseTree Article)) : RoseTree Article :=
  .node { item := { id := 12902 }, ref := 0, isContainer := true } items

theorem queryAdd_leaf {items : List (RoseTree Article)} {item : RoseTree Article} {inside : Bool}
    (hitems : (inboxWith items).All fun a ts => a.isContainer = false → ts = []) (hfew : (labelsOf items).length < 2)
    (hpickup : (houseTypes item.label.item.id).pickupable = true) (hleaf : item.label.isContainer = false) :
    queryAdd houseTypes (inboxWith items) item inside = .NOERROR := by
  have hcount : Container.getItemHoldingCount Article.isContainer (inboxWith items) =
      UInt32.ofNat (labelsOf items).length :=
    ContainerTree.getItemHoldingCount_eq ⟨inboxWith items, hitems⟩
  rw [queryAdd, hpickup, hleaf, hcount, if_neg (by decide), if_neg Bool.false_ne_true]
  generalize (labelsOf items).length = n at hfew
  obtain rfl | rfl : n = 0 ∨ n = 1 := by omega
  · cases inside <;> decide
  · cases inside <;> decide

theorem accepts_two {p q : Places} {r r' : Nat} {item item' : RoseTree Article} (hinbox : p.inbox = inboxWith [])
    (hfind : p.find r = some item)
    (hitem : (houseTypes item.label.item.id).pickupable = true ∧ item.label.isContainer = false ∧ item.children = [])
    (hremove : queryRemove houseTypes item.label (moveCount houseTypes item.label) = .NOERROR)
    (hq : ({ tiles := p.tiles.map (prunes (without Article.ref [r]))
             replaced := prunes (without Article.ref [r]) p.replaced
             inbox := addThing (.node p.inbox.label (prunes (without Article.ref [r]) p.inbox.children)) item } :
               Places) = q)
    (hinbox' : q.inbox = inboxWith [item]) (hfind' : q.find r' = some item')
    (hitem' : (houseTypes item'.label.item.id).pickupable = true ∧ item'.label.isContainer = false) :
    Accepts houseTypes [r, r'] p := by
  obtain ⟨hpickup, hleaf, hnothing⟩ := hitem
  have hadd (inside : Bool) : queryAdd houseTypes (inboxWith []) item inside = .NOERROR :=
    queryAdd_leaf ⟨nofun, trivial⟩ (by decide) hpickup hleaf
  have hmoved : internalMoveItem houseTypes p r = q := by
    rw [internalMoveItem, hfind]
    dsimp only
    rw [queryMove, hinbox, hadd, ← hinbox]
    dsimp only
    rw [hremove]
    exact hq
  refine ⟨fun found hfound => ?_, fun found hfound => ?_, trivial⟩
  · rw [hfind] at hfound
    rw [← Option.some.inj hfound, hinbox]
    exact hadd _
  · rw [hmoved] at hfound ⊢
    rw [hfind'] at hfound
    obtain rfl := Option.some.inj hfound
    have hsound : (inboxWith [item]).All fun a ts => a.isContainer = false → ts = [] :=
      ⟨nofun, all_iff.mpr ⟨fun _ => hnothing, by simp [hnothing]⟩, trivial⟩
    have hone : labelsOf [item] = [item.label] := by
      rw [labelsOf_cons, labels_eq, hnothing]
      simp [labelsOf]
    rw [hinbox']
    exact queryAdd_leaf hsound (by simp [hone]) hitem'.1 hitem'.2

/-- The lamp lies below the carpet. -/
def parlour : House houseTypes where
  townId := 1
  owner := 7
  tiles := [[lamp, carpet]]
  inbox := inboxWith []
  fresh := 3
  refs := by decide
  known := by decide
  sound := by decide
  counts := by decide
  transformable := by decide

theorem parlour_accepts : Accepts houseTypes parlour.collected.2.moveItemList parlour.places := by
  have hlist : parlour.collected.2.moveItemList = [2, 2] := by decide
  rw [hlist]
  exact accepts_two (q := { tiles := [[lamp]], replaced := [], inbox := inboxWith [kit] }) rfl rfl
    (by decide) rfl rfl rfl rfl (by decide)

/-- The lamp stays in the parlour. -/
theorem parlour_not_cleared : Accepts houseTypes parlour.collected.2.moveItemList parlour.places ∧
    ¬ Cleared houseTypes parlour parlour.transferToDepot.2.1 parlour.transferToDepot.2.2 := by
  refine ⟨parlour_accepts, fun hcleared => ?_⟩
  have hnone := deliveries_of_cleared houseTypes_kits parlour_accepts (by decide) hcleared [lamp, carpet]
    List.mem_cons_self lamp List.mem_cons_self
  cases hnone

/-- The carpet lies elsewhere. -/
def study : House houseTypes where
  townId := 1
  owner := 7
  tiles := [[lamp], [carpet]]
  inbox := inboxWith []
  fresh := 3
  refs := by decide
  known := by decide
  sound := by decide
  counts := by decide
  transformable := by decide

theorem study_accepts : Accepts houseTypes study.collected.2.moveItemList study.places := by
  have hlist : study.collected.2.moveItemList = [1, 2] := by decide
  rw [hlist]
  exact accepts_two (q := { tiles := [[], [kit]], replaced := [], inbox := inboxWith [lamp] }) rfl rfl
    (by decide) rfl rfl rfl rfl (by decide)

theorem study_cleared : Cleared houseTypes study study.transferToDepot.2.1 study.transferToDepot.2.2 :=
  (transferToDepot_iff houseTypes_kits study_accepts).mpr ⟨Or.inl (by decide), by decide⟩

end HouseDepot

end Moonlight
