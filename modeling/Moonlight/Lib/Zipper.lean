import Moonlight.Lib.Subtrees

/-!
# A place in a tree

A node of a tree is given with the way back to the root: a frame for every node above it, the closest one first, with
its label and its other children on both sides. `plug` goes that way, and puts whatever is there in place.

What is in the tree that results is what is in the place and what is `around` it (`plug_perm`), so putting something
else in the place changes every tree above by the same amount. Everything in a tree has a place (`exists_plug`).
-/

namespace RoseTree

variable {α : Type*}

/-- A node with its children, but for one. -/
structure Frame (α : Type*) where
  label : α
  before : List (RoseTree α)
  after : List (RoseTree α)

namespace Frame

def attach (f : Frame α) (t : RoseTree α) : RoseTree α := .node f.label (f.before ++ t :: f.after)

/-- What is in the frame. -/
def labels (f : Frame α) : List α := f.label :: (labelsOf f.before ++ labelsOf f.after)

theorem perm (f : Frame α) (ts : List (RoseTree α)) :
    (RoseTree.node f.label (f.before ++ ts ++ f.after)).labels.Perm (labelsOf ts ++ f.labels) := by
  rw [RoseTree.labels, labelsOf_append, labelsOf_append, labels, List.append_assoc]
  refine ((List.perm_append_comm_assoc _ _ _).cons _).trans ?_
  exact List.perm_middle.symm

theorem attach_eq (f : Frame α) (t : RoseTree α) : f.attach t = .node f.label (f.before ++ [t] ++ f.after) := by
  rw [attach, List.append_assoc, List.singleton_append]

theorem attach_perm (f : Frame α) (t : RoseTree α) : (f.attach t).labels.Perm (t.labels ++ f.labels) := by
  have hperm := f.perm [t]
  rwa [← attach_eq, labelsOf_cons, labelsOf, List.append_nil] at hperm

end Frame

/-- The tree above a place. -/
def plug (t : RoseTree α) : List (Frame α) → RoseTree α
  | [] => t
  | f :: fs => plug (f.attach t) fs

/-- What is in the frames. -/
def around (fs : List (Frame α)) : List α := fs.flatMap Frame.labels

theorem plug_perm (t : RoseTree α) (fs : List (Frame α)) : (plug t fs).labels.Perm (t.labels ++ around fs) := by
  induction fs generalizing t with
  | nil =>
    rw [plug, around, List.flatMap_nil, List.append_nil]
  | cons f fs ih =>
    rw [plug, around, List.flatMap_cons, ← List.append_assoc]
    exact (ih (f.attach t)).trans ((f.attach_perm t).append_right _)

theorem plug_append (t : RoseTree α) (fs gs : List (Frame α)) : plug t (fs ++ gs) = plug (plug t fs) gs := by
  induction fs generalizing t with
  | nil => rfl
  | cons f fs ih => exact ih (f.attach t)

theorem label_plug_mem (t : RoseTree α) (f : Frame α) (fs : List (Frame α)) :
    (plug t (f :: fs)).label ∈ around (f :: fs) := by
  induction fs generalizing t f with
  | nil => exact List.mem_flatMap.mpr ⟨f, List.mem_singleton_self f, List.mem_cons_self⟩
  | cons g gs ih =>
    rw [around, List.flatMap_cons]
    exact List.mem_append_right _ (ih (f.attach t) g)

mutual

theorem exists_plug (t : RoseTree α) {a : α} (h : a ∈ t.labels) : ∃ u fs, plug u fs = t ∧ u.label = a := by
  obtain ⟨b, ts⟩ := t
  rw [labels] at h
  rcases List.mem_cons.mp h with rfl | h
  · exact ⟨.node a ts, [], rfl, rfl⟩
  · obtain ⟨before, after, u, fs, heq, hlabel⟩ := exists_plug_of_mem ts h
    refine ⟨u, fs ++ [⟨b, before, after⟩], ?_, hlabel⟩
    rw [plug_append, heq]
    rfl

theorem exists_plug_of_mem (ts : List (RoseTree α)) {a : α} (h : a ∈ labelsOf ts) :
    ∃ before after u fs, ts = before ++ plug u fs :: after ∧ u.label = a := by
  cases ts with
  | nil =>
    rw [labelsOf] at h
    cases h
  | cons t ts =>
    rw [labelsOf_cons] at h
    rcases List.mem_append.mp h with h | h
    · obtain ⟨u, fs, heq, hlabel⟩ := exists_plug t h
      exact ⟨[], ts, u, fs, by rw [heq, List.nil_append], hlabel⟩
    · obtain ⟨before, after, u, fs, heq, hlabel⟩ := exists_plug_of_mem ts h
      exact ⟨t :: before, after, u, fs, by rw [heq, List.cons_append], hlabel⟩

end

theorem all_of_plug {P : α → List (RoseTree α) → Prop} {t : RoseTree α} {fs : List (Frame α)}
    (h : (plug t fs).All P) : t.All P := by
  induction fs generalizing t with
  | nil => exact h
  | cons f fs ih => exact (all_iff.mp (ih h)).2 t (List.mem_append_right _ List.mem_cons_self)

theorem all_plug_take {P : α → List (RoseTree α) → Prop} {t : RoseTree α} {fs : List (Frame α)}
    (h : (plug t fs).All P) (k : Nat) : (plug t (fs.take k)).All P := by
  rw [← List.take_append_drop k fs, plug_append] at h
  exact all_of_plug h

end RoseTree
