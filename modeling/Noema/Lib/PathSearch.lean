import Mathlib

/-!
# Depth-first search for paths, with a cap

The edges of a graph are given for each node, in an order and with labels, so that there may be
several from one node to another. `search` collects the paths to a goal until there are `cap` of
them; it looks at the cap when it enters a node and when it has found a path, and not when it comes
back to a node. So it may find more than `cap` paths: after a deeper search has reached the cap, the
loop of the node above goes on with its next edge.

- `routes`: the sequences of edges that lead to the goal, in the order of the search (`mem_routes`).
  This is the specification: what a search without a cap would find.
- `Overruns`: some route after the first `cap` ones leaves the last of these, before its last edge,
  straight to the goal.
- `search_finds`: the search finds the first `cap` of them, and none beyond if and only if it does
  not overrun (`Overruns`). The induction is over the depth; `Finds` is what it says of one loop,
  and `Finds.via_of_lt`, `Finds.via_of_le` and `Finds.direct` are one edge more.
-/

namespace Noema.Lib.PathSearch

variable {V E : Type} [DecidableEq V]

section Search

variable (next : V → List (E × V)) (goal : V)

/-- The loop over the edges of a node. -/
def searchEdges (cap : ℕ) (search : V → List V → List (List V) → List (List V)) (path : List V) :
    List (E × V) → List (List V) → List (List V)
  | [], found => found
  | e :: es, found =>
    if e.2 ∈ path then searchEdges cap search path es found
    else if e.2 = goal then
      if cap ≤ found.length + 1 then found ++ [path ++ [e.2]]
      else searchEdges cap search path es (found ++ [path ++ [e.2]])
    else searchEdges cap search path es (search e.2 (path ++ [e.2]) found)

/-- The search from a node, along so many edges at most. -/
def search (cap : ℕ) : ℕ → V → List V → List (List V) → List (List V)
  | 0, _, _, found => found
  | n + 1, v, path, found =>
    if cap ≤ found.length then found
    else searchEdges goal cap (search cap n) path (next v) found

/-- The sequences of edges to the goal that begin with an edge. -/
def routesVia (routes : V → List V → List (List (E × V))) (path : List V) (e : E × V) :
    List (List (E × V)) :=
  if e.2 ∈ path then []
  else if e.2 = goal then [[e]]
  else (routes e.2 (path ++ [e.2])).map (e :: ·)

/-- The sequences of edges from a node to the goal, of so many edges at most, that meet no node
twice and none of the path. -/
def routes : ℕ → V → List V → List (List (E × V))
  | 0, _, _ => []
  | n + 1, v, path => (next v).flatMap (routesVia goal (routes n) path)

end Search

/-- The nodes of a path that goes on along a route. -/
def nodesOf (path : List V) (route : List (E × V)) : List V := path ++ route.map Prod.snd

/-- Some route after the first `cap` ones leaves the last of these, before its last edge, straight
to the goal. -/
def Overruns (cap : ℕ) (routes : List (List E)) : Prop :=
  ∃ last, routes[cap - 1]? = some last ∧
    ∃ route ∈ routes.drop cap, route.dropLast <+: last ∧ route.length < last.length

/-! ## Routes -/

section Routes

variable {next : V → List (E × V)} {goal : V}

/-- The edges lead from the node on. -/
def Follows (next : V → List (E × V)) : V → List (E × V) → Prop
  | _, [] => True
  | v, e :: es => e ∈ next v ∧ Follows next e.2 es

theorem mem_routesVia {routes : V → List V → List (List (E × V))} {path : List V} {e : E × V}
    {route : List (E × V)} :
    route ∈ routesVia goal routes path e ↔ e.2 ∉ path ∧
      (e.2 = goal ∧ route = [e] ∨
        e.2 ≠ goal ∧ ∃ rest ∈ routes e.2 (path ++ [e.2]), route = e :: rest) := by
  rw [routesVia]
  by_cases hpath : e.2 ∈ path
  · simp [hpath]
  · by_cases hgoal : e.2 = goal
    · simp [hgoal]
    · rw [if_neg hpath, if_neg hgoal, List.mem_map]
      constructor
      · rintro ⟨rest, hrest, rfl⟩
        exact ⟨hpath, .inr ⟨hgoal, rest, hrest, rfl⟩⟩
      · rintro ⟨-, ⟨heq, -⟩ | ⟨-, rest, hrest, rfl⟩⟩
        · exact absurd heq hgoal
        · exact ⟨rest, hrest, rfl⟩

/-- What the routes are. -/
theorem mem_routes {n : ℕ} {v : V} {path : List V} {route : List (E × V)} (hpath : path.Nodup) :
    route ∈ routes next goal n v path ↔
      route.length ≤ n ∧ Follows next v route ∧ route.getLast?.map Prod.snd = some goal ∧
        (nodesOf path route).Nodup := by
  induction n generalizing v path route with
  | zero =>
    rw [routes]
    refine iff_of_false List.not_mem_nil ?_
    rintro ⟨hlength, -, hlast, -⟩
    rw [List.length_eq_zero_iff.mp (Nat.le_zero.mp hlength)] at hlast
    cases hlast
  | succ n ih =>
    rw [routes, List.mem_flatMap]
    constructor
    · rintro ⟨e, he, hroute⟩
      obtain ⟨hnew, ⟨hgoal, rfl⟩ | ⟨-, rest, hrest, rfl⟩⟩ := mem_routesVia.mp hroute
      · refine ⟨Nat.le_add_left 1 n, ⟨he, trivial⟩, congrArg some hgoal, ?_⟩
        exact hpath.append (List.nodup_singleton _) (by simpa using hnew)
      · have hpath' : (path ++ [e.2]).Nodup :=
          hpath.append (List.nodup_singleton _) (by simpa using hnew)
        obtain ⟨hlength, hfollows, hlast, hnodup⟩ := (ih hpath').mp hrest
        refine ⟨Nat.succ_le_succ hlength, ⟨he, hfollows⟩, ?_, ?_⟩
        · cases rest with
          | nil => cases hlast
          | cons e' rest => rwa [List.getLast?_cons_cons]
        · rw [nodesOf, List.map_cons]
          rwa [nodesOf, List.append_assoc] at hnodup
    · rintro ⟨hlength, hfollows, hlast, hnodup⟩
      cases route with
      | nil => cases hlast
      | cons e rest =>
        obtain ⟨he, hrest⟩ := hfollows
        rw [nodesOf, List.map_cons] at hnodup
        have hnew : e.2 ∉ path := fun hmem =>
          (List.disjoint_of_nodup_append hnodup) hmem List.mem_cons_self
        refine ⟨e, he, mem_routesVia.mpr ⟨hnew, ?_⟩⟩
        cases rest with
        | nil => exact .inl ⟨Option.some.inj hlast, rfl⟩
        | cons e' rest =>
          have hpath' : (path ++ [e.2]).Nodup :=
            hpath.append (List.nodup_singleton _) (by simpa using hnew)
          -- a route that goes on has not reached its goal, as it would meet it again
          have hgoal : e.2 ≠ goal := by
            intro heq
            have hmem : goal ∈ (e' :: rest).map Prod.snd := by
              rw [List.getLast?_cons_cons] at hlast
              obtain ⟨last, hmem, hsnd⟩ := Option.map_eq_some_iff.mp hlast
              exact hsnd ▸ List.mem_map_of_mem (List.mem_of_getLast? hmem)
            have htail := (List.nodup_append.mp hnodup).2.1
            exact (List.nodup_cons.mp htail).1 (heq ▸ hmem)
          refine .inr ⟨hgoal, e' :: rest, (ih hpath').mpr ⟨Nat.le_of_succ_le_succ hlength, hrest,
            ?_, ?_⟩, rfl⟩
          · rwa [List.getLast?_cons_cons] at hlast
          · rwa [nodesOf, List.append_assoc]

theorem ne_nil_of_mem_routes {n : ℕ} {v : V} {path : List V} {route : List (E × V)}
    (h : route ∈ routes next goal n v path) : route ≠ [] := by
  cases n with
  | zero => cases h
  | succ n =>
    obtain ⟨e, -, hroute⟩ := List.mem_flatMap.mp h
    obtain ⟨-, ⟨-, rfl⟩ | ⟨-, rest, -, rfl⟩⟩ := mem_routesVia.mp hroute
    · exact List.cons_ne_nil _ _
    · exact List.cons_ne_nil _ _

end Routes

/-! ## Overruns -/

section Overruns

variable {routes routes' : List (List E)} {b : ℕ}

omit [DecidableEq V] in
theorem nodesOf_cons (path : List V) (e : E × V) (route : List (E × V)) :
    nodesOf path (e :: route) = nodesOf (path ++ [e.2]) route := by
  simp [nodesOf]

theorem overruns_append_of_lt (h : routes.length < b) :
    Overruns b (routes ++ routes') ↔ Overruns (b - routes.length) routes' := by
  have hget : (routes ++ routes')[b - 1]? = routes'[b - routes.length - 1]? := by
    rw [List.getElem?_append_right (by omega)]
    congr 1
    omega
  have hdrop : (routes ++ routes').drop b = routes'.drop (b - routes.length) := by
    rw [List.drop_append, List.drop_eq_nil_of_le h.le, List.nil_append]
  rw [Overruns, Overruns, hget, hdrop]

/-- The routes via one edge do not overrun each other but by themselves, and they are overrun by
every later edge straight to the goal. -/
theorem overruns_append_of_le {e : E} (hb : 0 < b) (h : b ≤ routes.length)
    (hne : ∀ route ∈ routes, route ≠ []) (hne' : ∀ route ∈ routes', route ≠ [])
    (hhead : ∀ route ∈ routes', route.head? ≠ some e) :
    Overruns b (routes.map (e :: ·) ++ routes') ↔
      Overruns b routes ∨ ∃ route ∈ routes', route.length = 1 := by
  have hlt : b - 1 < routes.length := by omega
  have hget : (routes.map (e :: ·) ++ routes')[b - 1]? = some (e :: routes[b - 1]) := by
    rw [List.getElem?_append_left (by rw [List.length_map]; exact hlt), List.getElem?_map,
      List.getElem?_eq_getElem hlt]
    rfl
  have hdrop : (routes.map (e :: ·) ++ routes').drop b =
      (routes.drop b).map (e :: ·) ++ routes' := by
    rw [List.drop_append_of_le_length (by rw [List.length_map]; exact h), List.map_drop]
  have hlast : routes[b - 1] ≠ [] := hne _ (List.getElem_mem hlt)
  have hget' : routes[b - 1]? = some routes[b - 1] := List.getElem?_eq_getElem hlt
  rw [Overruns, Overruns, hget, hdrop, hget']
  simp only [Option.some.injEq, exists_eq_left', List.mem_append, List.mem_map]
  constructor
  · rintro ⟨route, ⟨rest, hrest, rfl⟩ | hroute, hprefix, hlength⟩
    · have hne := hne rest (List.mem_of_mem_drop hrest)
      rw [List.dropLast_cons_of_ne_nil hne, List.cons_prefix_cons] at hprefix
      exact .inl ⟨rest, hrest, hprefix.2, by simpa using hlength⟩
    · right
      refine ⟨route, hroute, ?_⟩
      -- Two edges or more would begin with the edge that the last route begins with.
      obtain ⟨e', rest, rfl⟩ := List.exists_cons_of_ne_nil (hne' route hroute)
      cases rest with
      | nil => rfl
      | cons e'' rest =>
        rw [List.dropLast_cons_cons, List.cons_prefix_cons] at hprefix
        exact absurd (congrArg some hprefix.1) (hhead _ hroute)
  · rintro (⟨rest, hrest, hprefix, hlength⟩ | ⟨route, hroute, hlength⟩)
    · have hne := hne rest (List.mem_of_mem_drop hrest)
      refine ⟨e :: rest, .inl ⟨rest, hrest, rfl⟩, ?_, by simpa using hlength⟩
      rw [List.dropLast_cons_of_ne_nil hne, List.cons_prefix_cons]
      exact ⟨rfl, hprefix⟩
    · obtain ⟨e', rfl⟩ := List.length_eq_one_iff.mp hlength
      refine ⟨[e'], .inr hroute, List.nil_prefix, ?_⟩
      rw [List.length_singleton, List.length_cons]
      exact Nat.succ_lt_succ (List.length_pos_iff.mpr hlast)

end Overruns

/-! ## What the search finds -/

/-- The search adds the first `b` routes, none beyond these if and only if they are not overrun, and
nothing else. -/
def Finds (path : List V) (routes : List (List (E × V))) (b : ℕ) (found found' : List (List V)) :
    Prop :=
  ∃ extra, found' = found ++ (routes.take b).map (nodesOf path) ++ extra ∧
    (extra = [] ↔ ¬ Overruns b routes) ∧ ∀ nodes ∈ extra, ∃ route ∈ routes, nodes = nodesOf path route

section Finds

variable {next : V → List (E × V)} {goal : V} {cap : ℕ}
  {search : V → List V → List (List V) → List (List V)}
  {routes : V → List V → List (List (E × V))} {path : List V} {es : List (E × V)}
  {found : List (List V)}

/-- After the cap was reached, the loop adds the next edge straight to the goal. -/
theorem searchEdges_full (hcap : cap ≤ found.length)
    (hsearch : ∀ w path, search w path found = found)
    (hroutes : ∀ w path, ∀ route ∈ routes w path, route ≠ []) :
    ∃ extra, searchEdges goal cap search path es found = found ++ extra ∧
      (extra = [] ↔ ∀ route ∈ es.flatMap (routesVia goal routes path), route.length ≠ 1) ∧
      ∀ nodes ∈ extra, ∃ route ∈ es.flatMap (routesVia goal routes path),
        nodes = nodesOf path route := by
  induction es with
  | nil => exact ⟨[], by simp [searchEdges], by simp, by simp⟩
  | cons e es ih =>
    rw [searchEdges, List.flatMap_cons]
    by_cases hpath : e.2 ∈ path
    · rw [if_pos hpath, routesVia, if_pos hpath, List.nil_append]
      exact ih
    by_cases hgoal : e.2 = goal
    · rw [if_neg hpath, if_pos hgoal, if_pos (by omega), routesVia, if_neg hpath, if_pos hgoal]
      refine ⟨[path ++ [e.2]], rfl, ?_, ?_⟩
      · refine iff_of_false (List.cons_ne_nil _ _) fun h => ?_
        exact h [e] (List.mem_append_left _ (List.mem_singleton_self _)) rfl
      · intro nodes hnodes
        exact ⟨[e], List.mem_append_left _ (List.mem_singleton_self _), List.mem_singleton.mp hnodes⟩
    · obtain ⟨extra, heq, hnone, hsound⟩ := ih
      rw [if_neg hpath, if_neg hgoal, hsearch]
      refine ⟨extra, heq, ?_, fun nodes hnodes => ?_⟩
      · rw [hnone, List.forall_mem_append, and_iff_right]
        intro route hroute
        obtain ⟨-, ⟨heq, -⟩ | ⟨-, rest, hrest, rfl⟩⟩ := mem_routesVia.mp hroute
        · exact absurd heq hgoal
        · intro hlength
          exact hroutes _ _ rest hrest (List.length_eq_zero_iff.mp (Nat.succ.inj hlength))
      · obtain ⟨route, hroute, heq⟩ := hsound nodes hnodes
        exact ⟨route, List.mem_append_right _ hroute, heq⟩

theorem ne_nil_of_mem_via {route : List (E × V)}
    (h : route ∈ es.flatMap (routesVia goal routes path)) : route ≠ [] := by
  obtain ⟨e, -, hroute⟩ := List.mem_flatMap.mp h
  obtain ⟨-, ⟨-, rfl⟩ | ⟨-, rest, -, rfl⟩⟩ := mem_routesVia.mp hroute
  · exact List.cons_ne_nil _ _
  · exact List.cons_ne_nil _ _

theorem head?_mem_via {route : List (E × V)}
    (h : route ∈ es.flatMap (routesVia goal routes path)) : ∃ e ∈ es, route.head? = some e := by
  obtain ⟨e, he, hroute⟩ := List.mem_flatMap.mp h
  obtain ⟨-, ⟨-, rfl⟩ | ⟨-, rest, -, rfl⟩⟩ := mem_routesVia.mp hroute
  · exact ⟨e, he, rfl⟩
  · exact ⟨e, he, rfl⟩

omit [DecidableEq V] in
/-- When there are fewer routes than are looked for, all are found. -/
theorem Finds.eq_of_lt {b : ℕ} {rs : List (List (E × V))} {found' : List (List V)}
    (h : Finds path rs b found found') (hb : rs.length < b) :
    found' = found ++ rs.map (nodesOf path) := by
  obtain ⟨extra, hfound, hextra, -⟩ := h
  have hnil : extra = [] := by
    refine hextra.mpr ?_
    rintro ⟨last, hlast, -⟩
    rw [List.getElem?_eq_none (by omega)] at hlast
    cases hlast
  rw [hfound, hnil, List.append_nil, List.take_of_length_le hb.le]

omit [DecidableEq V] in
/-- One edge straight to the goal. -/
theorem Finds.direct {b : ℕ} {e : E × V} {rs : List (List (E × V))} {found' : List (List V)}
    (hb : 1 < b) (h : Finds path rs (b - 1) (found ++ [path ++ [e.2]]) found') :
    Finds path ([e] :: rs) b found found' := by
  obtain ⟨extra, heq, hnone, hsound⟩ := h
  refine ⟨extra, ?_, ?_, fun nodes hnodes => ?_⟩
  · obtain ⟨b, rfl⟩ : ∃ n, b = n + 1 := Nat.exists_eq_succ_of_ne_zero (by omega)
    rw [heq, List.take_succ_cons, List.map_cons, Nat.add_sub_cancel]
    simp [nodesOf]
  · rw [hnone]
    exact not_congr (@overruns_append_of_lt _ [[e]] _ _ hb).symm
  · obtain ⟨route, hroute, heq⟩ := hsound nodes hnodes
    exact ⟨route, List.mem_cons_of_mem _ hroute, heq⟩

omit [DecidableEq V] in
/-- The routes via one edge, fewer than are looked for. -/
theorem Finds.via_of_lt {b : ℕ} {e : E × V} {via rs : List (List (E × V))}
    {found' found'' : List (List V)} (hb : via.length < b)
    (hvia : Finds (path ++ [e.2]) via b found found')
    (h : Finds path rs (b - via.length) found' found'') :
    Finds path (via.map (e :: ·) ++ rs) b found found'' := by
  obtain ⟨extra, hfound, hnone, hsound⟩ := h
  have hlength : (via.map (e :: ·)).length = via.length := List.length_map _
  have hnodes : (via.map (e :: ·)).map (nodesOf path) = via.map (nodesOf (path ++ [e.2])) := by
    rw [List.map_map]
    exact List.map_congr_left fun route _ => nodesOf_cons path e route
  have htake : (via.map (e :: ·) ++ rs).take b = via.map (e :: ·) ++ rs.take (b - via.length) := by
    rw [List.take_append, hlength, List.take_of_length_le (hlength ▸ hb.le)]
  refine ⟨extra, ?_, ?_, fun nodes hmem => ?_⟩
  · rw [hfound, hvia.eq_of_lt hb, htake, List.map_append, hnodes]
    simp only [List.append_assoc]
  · rw [hnone, overruns_append_of_lt (hlength ▸ hb), hlength]
  · obtain ⟨route, hroute, heq⟩ := hsound nodes hmem
    exact ⟨route, List.mem_append_right _ hroute, heq⟩

omit [DecidableEq V] in
/-- The routes via one edge, as many as are looked for or more. -/
theorem Finds.via_of_le {b : ℕ} {e : E × V} {via rs : List (List (E × V))}
    {found' extra' : List (List V)} (hpos : 0 < b) (hb : b ≤ via.length)
    (hne : ∀ route ∈ via, route ≠ []) (hne' : ∀ route ∈ rs, route ≠ [])
    (hhead : ∀ route ∈ rs, route.head? ≠ some e) (hvia : Finds (path ++ [e.2]) via b found found')
    (hextra : extra' = [] ↔ ∀ route ∈ rs, route.length ≠ 1)
    (hsound' : ∀ nodes ∈ extra', ∃ route ∈ rs, nodes = nodesOf path route) :
    Finds path (via.map (e :: ·) ++ rs) b found (found' ++ extra') := by
  obtain ⟨extra, hfound, hnone, hsound⟩ := hvia
  refine ⟨extra ++ extra', ?_, ?_, fun nodes hmem => ?_⟩
  · have hnodes : ((via.take b).map (e :: ·)).map (nodesOf path) =
        (via.take b).map (nodesOf (path ++ [e.2])) := by
      rw [List.map_map]
      exact List.map_congr_left fun route _ => nodesOf_cons path e route
    rw [hfound, List.take_append_of_le_length (by rw [List.length_map]; exact hb), ← List.map_take,
      hnodes]
    simp only [List.append_assoc]
  · rw [List.append_eq_nil_iff, hnone, hextra, overruns_append_of_le hpos hb hne hne' hhead, not_or]
    refine and_congr_right fun _ => ?_
    push Not
    rfl
  · rcases List.mem_append.mp hmem with hmem | hmem
    · obtain ⟨route, hroute, rfl⟩ := hsound nodes hmem
      exact ⟨e :: route, List.mem_append_left _ (List.mem_map_of_mem hroute),
        (nodesOf_cons path e route).symm⟩
    · obtain ⟨route, hroute, heq⟩ := hsound' nodes hmem
      exact ⟨route, List.mem_append_right _ hroute, heq⟩

/-- What the loop finds, when the searches from the nodes find what they are to find. -/
theorem searchEdges_finds
    (hsearch : ∀ w path found b, found.length + b = cap → 0 < b →
      Finds path (routes w path) b found (search w path found))
    (hfull : ∀ w path found, cap ≤ found.length → search w path found = found)
    (hroutes : ∀ w path, ∀ route ∈ routes w path, route ≠ []) (hes : es.Nodup) {b : ℕ}
    (hcap : found.length + b = cap) (hpos : 0 < b) :
    Finds path (es.flatMap (routesVia goal routes path)) b found
      (searchEdges goal cap search path es found) := by
  induction es generalizing found b with
  | nil =>
    refine ⟨[], by simp [searchEdges], iff_of_true rfl ?_, by simp⟩
    rintro ⟨last, hlast, -⟩
    cases hlast
  | cons e es ih =>
    obtain ⟨hnew, hes⟩ := List.nodup_cons.mp hes
    rw [searchEdges, List.flatMap_cons, routesVia]
    by_cases hpath : e.2 ∈ path
    · rw [if_pos hpath, if_pos hpath, List.nil_append]
      exact ih hes hcap hpos
    by_cases hgoal : e.2 = goal
    · rw [if_neg hpath, if_pos hgoal, if_neg hpath, if_pos hgoal, List.singleton_append]
      split
      · -- This is the last path that is looked for, and the loop ends.
        next hlast =>
        cases show b = 1 by omega
        refine ⟨[], ?_, iff_of_true rfl ?_, by simp⟩
        · simp [nodesOf]
        · rintro ⟨last, hlast, route, hroute, -, hlength⟩
          cases hlast
          have hnil : route = [] := List.length_eq_zero_iff.mp (Nat.lt_one_iff.mp hlength)
          exact ne_nil_of_mem_via hroute hnil
      · next hmore =>
        have hrest := @ih (found ++ [path ++ [e.2]]) hes (b - 1)
          (by rw [List.length_append, List.length_singleton]; omega) (by omega)
        exact hrest.direct (by omega)
    · rw [if_neg hpath, if_neg hgoal, if_neg hpath, if_neg hgoal]
      have hvia := hsearch e.2 (path ++ [e.2]) found b hcap hpos
      obtain ⟨extra, hfound, -⟩ := id hvia
      -- the routes by way of this edge are all found, or the limit is reached among them
      by_cases hb : (routes e.2 (path ++ [e.2])).length < b
      · refine hvia.via_of_lt hb (ih hes ?_ (by omega))
        rw [hvia.eq_of_lt hb, List.length_append, List.length_map]
        omega
      · have hle := Nat.not_lt.mp hb
        have hreached : cap ≤ (search e.2 (path ++ [e.2]) found).length := by
          rw [hfound, List.length_append, List.length_append, List.length_map, List.length_take]
          omega
        obtain ⟨extra', heq, hextra, hsound⟩ :=
          @searchEdges_full _ _ _ goal _ _ _ path es _ hreached
            (fun w path => hfull w path _ hreached) hroutes
        rw [heq]
        refine hvia.via_of_le hpos hle (hroutes _ _) (fun route => ne_nil_of_mem_via) ?_
          hextra hsound
        intro route hroute hhead
        obtain ⟨e', he', hhead'⟩ := head?_mem_via hroute
        cases hhead.symm.trans hhead'
        exact hnew he'

theorem search_of_full (n : ℕ) (v : V) (path : List V) (h : cap ≤ found.length) :
    PathSearch.search next goal cap n v path found = found := by
  cases n with
  | zero => rfl
  | succ n => rw [PathSearch.search, if_pos h]

/-- What the search finds. -/
theorem search_finds (hnext : ∀ v, (next v).Nodup) (n : ℕ) (v : V) (path : List V)
    (found : List (List V)) {b : ℕ} (hcap : found.length + b = cap) (hpos : 0 < b) :
    Finds path (PathSearch.routes next goal n v path) b found
      (PathSearch.search next goal cap n v path found) := by
  induction n generalizing v path found b with
  | zero =>
    refine ⟨[], by simp [PathSearch.search, PathSearch.routes], iff_of_true rfl ?_, by simp⟩
    rintro ⟨last, hlast, -⟩
    cases hlast
  | succ n ih =>
    rw [PathSearch.search, PathSearch.routes, if_neg (by omega)]
    refine searchEdges_finds (fun w path found b => ih w path found)
      (fun w path found h => search_of_full n w path h) (fun w path route h => ?_) (hnext v) hcap hpos
    exact ne_nil_of_mem_routes h

omit [DecidableEq V] in
/-- There are at most as many as are looked for if and only if these are not overrun. -/
theorem Finds.length_le_iff {b : ℕ} {rs : List (List (E × V))} {found' : List (List V)}
    (h : Finds path rs b [] found') : found'.length ≤ b ↔ ¬ Overruns b rs := by
  obtain ⟨extra, rfl, hnone, -⟩ := h
  rw [← hnone, List.nil_append, List.length_append, List.length_map, List.length_take,
    ← List.length_eq_zero_iff]
  constructor
  · intro hlength
    by_cases hb : rs.length < b
    · -- Fewer than are looked for are not overrun.
      rw [List.length_eq_zero_iff, hnone]
      rintro ⟨last, hlast, -⟩
      rw [List.getElem?_eq_none (by omega)] at hlast
      cases hlast
    · omega
  · intro hextra
    omega

end Finds

end Noema.Lib.PathSearch
