import CasStore.Fault
import CasStore.Table

/-!
# What an error remembers

Entries are added to an error's context call by call, and its listing shows them.  Every name keeps the
last value given for it.  Null fields are left out, and so are the names that a context answers to by
itself; once `to_dict` is given there is no listing any more.

    (c.set name v).get other = c.get other, for another name         (get_set_of_ne)
    an entry is the last value given, or the old one                 (get_foldl_set)
    the listing is the fields, null ones left out, and the others    (listing_of_tidy)
    an error shows what was given last                               (contexts_accumulate)
-/

namespace CasStore

/-! ## Algorithm -/

/-- The value is not null. -/
def Value.nonNull : Value → Bool
  | .null => false
  | _ => true

namespace Context

/-- The names of the fields. -/
def fieldNames : List String := ["key", "command", "backend", "index"]

/-- The names that no plain value can be given for, and the one that gives all the fields at once. -/
def refusedNames : List String := ["self", "__class__", "__dict__", "__weakref__"]

/-- None of the entries gives all the fields at once. -/
def Plain (es : List (String × Value)) : Prop := ∀ e ∈ es, e.1 ≠ "__dict__"

/-- The other entries have names of their own, one each, and the fields were given one by one. -/
structure Tidy (c : Context Value) : Prop where
  nodup : (c.extra.map (·.1)).Nodup
  other : ∀ name ∈ c.extra.map (·.1), name ∉ fieldNames ∧ name ∉ ownNames
  single : c.hidden.lookup "__dict__" = none

end Context

/-- The value that was given last for a name. -/
def lastGiven (calls : List (List (String × Value))) (name : String) : Option Value :=
  calls.flatten.reverse.lookup name

/-- What is to be shown under a name: the value given last, but no null under the name of a field. -/
def due (calls : List (List (String × Value))) (name : String) : Option Value :=
  if name ∈ Context.fieldNames then (lastGiven calls name).filter Value.nonNull else lastGiven calls name

namespace Fault

/-- `f` with entries added to its context, call by call. -/
def annotateAll (f : Fault) (calls : List (List (String × Value))) : Fault :=
  calls.foldl (fun f entries => (f.annotate entries).1) f

/-- The listing of `f` is that of `d` with a context that has each name once and under it what is expected.
The context is left out when it has no entry. -/
def Shows (f : Fault) (d : Details Value Fault) (expected : String → Option Value) : Prop :=
  ∃ context, f.listing = .ok (report d context) ∧ (context.map (·.1)).Nodup ∧
    (∀ name, context.lookup name = expected name) ∧
    (report d context).lookup "context" = if context.isEmpty then none else some (.record context)

end Fault

/-! ## Lemmas -/

namespace Context

variable {c : Context Value} {name other : String} {v : Value} {es acc : List (String × Value)}
  {calls : List (List (String × Value))}

/-! ### Lists of entries -/

theorem setEntry_eq_putEntry (name : String) (v : Value) (es : List (String × Value)) :
    setEntry name v es = Table.putEntry name v es := by
  induction es with
  | nil => rfl
  | cons e es ih => unfold setEntry Table.putEntry; rw [ih]

theorem nodup_setEntry (h : (es.map (·.1)).Nodup) (name : String) (v : Value) :
    ((setEntry name v es).map (·.1)).Nodup := by
  rw [setEntry_eq_putEntry]
  exact (Table.insert ⟨es, h⟩ name v).nodup

theorem mem_setEntry (h : other ∈ (setEntry name v es).map (·.1)) : other = name ∨ other ∈ es.map (·.1) := by
  rw [setEntry_eq_putEntry, Table.map_fst_putEntry] at h
  split at h
  · exact .inr h
  · rcases List.mem_append.1 h with hold | hnew
    · exact .inr hold
    · exact .inl (List.mem_singleton.1 hnew)

theorem setEntry_of_new (h : name ∉ es.map (·.1)) : setEntry name v es = es ++ [(name, v)] := by
  induction es with
  | nil => rfl
  | cons e es ih =>
    rw [List.map_cons, List.mem_cons, not_or] at h
    unfold setEntry
    rw [if_neg fun heq => h.1 heq.symm, ih h.2]
    rfl

/-- Entries of new names are put behind the others. -/
theorem foldl_setEntry_of_new (hnodup : (es.map (·.1)).Nodup)
    (hnew : ∀ name ∈ es.map (·.1), name ∉ acc.map (·.1)) :
    es.foldl (fun acc (name, v) => setEntry name v acc) acc = acc ++ es := by
  induction es generalizing acc with
  | nil => exact (List.append_nil acc).symm
  | cons e es ih =>
    obtain ⟨name, v⟩ := e
    obtain ⟨he, hes⟩ := List.nodup_cons.1 hnodup
    have hname : name ∉ acc.map (·.1) := hnew name (List.mem_cons_self ..)
    show es.foldl _ (setEntry name v acc) = _
    rw [setEntry_of_new hname, ih hes, List.append_assoc]
    · rfl
    · intro other hother
      rw [List.map_append, List.mem_append, not_or]
      refine ⟨hnew other (List.mem_cons_of_mem _ hother), fun heq => he ?_⟩
      rwa [← List.mem_singleton.1 heq]

theorem lookup_eq_none_of_notMem (h : name ∉ es.map (·.1)) : es.lookup name = none :=
  List.lookup_eq_none_iff.2 fun _ he => bne_iff_ne.2 fun heq => h (heq ▸ List.mem_map_of_mem he)

theorem lookup_filter (hnodup : (es.map (·.1)).Nodup) (p : Value → Bool) (name : String) :
    (es.filter fun (_, v) => p v).lookup name = (es.lookup name).filter p := by
  induction es with
  | nil => rfl
  | cons e es ih =>
    obtain ⟨n, v⟩ := e
    obtain ⟨he, hes⟩ := List.nodup_cons.1 hnodup
    have hfilter : ((n, v) :: es).filter (fun (_, v) => p v) =
        if p v then (n, v) :: es.filter fun (_, v) => p v else es.filter fun (_, v) => p v :=
      List.filter_cons
    rw [hfilter]
    by_cases hn : name = n
    · subst hn
      have hrest : es.lookup name = none := lookup_eq_none_of_notMem he
      rw [List.lookup_cons_self, Option.filter_some]
      split
      · exact List.lookup_cons_self
      · rw [ih hes, hrest]
        rfl
    · have hne : (name == n) = false := beq_false_of_ne hn
      rw [List.lookup_cons, hne, ← ih hes]
      split
      · rw [List.lookup_cons, hne]
      · rfl

/-! ### Entries of a context -/

theorem get_set_of_ne (h : other ≠ name) (hname : name ≠ "__dict__") (c : Context Value) (v : Value) :
    (c.set name v).get other = c.get other := by
  unfold set
  split
  · next hn => subst hn; simp only [get, if_neg h]
  split
  · next hn => subst hn; simp only [get, if_neg h]
  split
  · next hn => subst hn; simp only [get, if_neg h]
  split
  · next hn => subst hn; simp only [get, if_neg h]
  split
  · simp only [get, lookup_setEntry_of_ne h]
  · simp only [get, lookup_setEntry_of_ne h]

/-- An entry is the last value given for its name, or what it was before. -/
theorem get_foldl_set (hes : Plain es) (c : Context Value) (name : String) :
    (es.foldl (fun c (name, v) => c.set name v) c).get name =
      (es.reverse.lookup name).or (c.get name) := by
  induction es generalizing c with
  | nil => rfl
  | cons e es ih =>
    obtain ⟨n, v⟩ := e
    obtain ⟨hn', hes⟩ := List.forall_mem_cons.1 hes
    rw [List.foldl_cons, ih hes, List.reverse_cons, List.lookup_append, Option.or_assoc]
    congr 1
    by_cases hn : name = n
    · subst hn
      rw [get_set, List.lookup_cons_self]
      rfl
    · rw [get_set_of_ne hn hn', List.lookup_cons, beq_false_of_ne hn]
      rfl

theorem tidy_empty : (empty : Context Value).Tidy := ⟨.nil, (fun _ h => by cases h), rfl⟩

theorem extra_set (hname : name ≠ "__dict__") (c : Context Value) (v : Value) : (c.set name v).extra =
    if name ∈ fieldNames ∨ name ∈ ownNames then c.extra else setEntry name v c.extra := by
  by_cases hfield : name ∈ fieldNames
  · rw [if_pos (.inl hfield)]
    simp only [fieldNames, List.mem_cons, List.not_mem_nil, or_false] at hfield
    rcases hfield with rfl | rfl | rfl | rfl <;> rfl
  · have hother := hfield
    simp only [fieldNames, List.mem_cons, List.not_mem_nil, or_false, not_or] at hother
    obtain ⟨hkey, hcommand, hbackend, hindex⟩ := hother
    unfold set
    rw [if_neg hkey, if_neg hcommand, if_neg hbackend, if_neg hindex, if_neg hname]
    by_cases hown : name ∈ ownNames
    · rw [if_pos hown, if_pos (.inr hown)]
    · rw [if_neg hown, if_neg (not_or.2 ⟨hfield, hown⟩)]

theorem Tidy.set (h : c.Tidy) (hname : name ≠ "__dict__") (v : Value) : (c.set name v).Tidy := by
  have hget : ∀ c : Context Value, c.get "__dict__" = c.hidden.lookup "__dict__" := fun _ => rfl
  refine ⟨?_, ?_, ?_⟩
  · rw [extra_set hname]
    split
    · exact h.nodup
    · exact nodup_setEntry h.nodup name v
  · rw [extra_set hname]
    split
    · exact h.other
    · next hnew =>
      intro n hn
      rcases mem_setEntry hn with rfl | hold
      · exact not_or.1 hnew
      · exact h.other n hold
  · rw [← hget, get_set_of_ne hname.symm hname, hget]
    exact h.single

theorem tidy_foldl_set (hes : Plain es) :
    (es.foldl (fun c (name, v) => c.set name v) (empty : Context Value)).Tidy := by
  have hfrom : ∀ c : Context Value, c.Tidy → (es.foldl (fun c (name, v) => c.set name v) c).Tidy := by
    induction es with
    | nil => exact fun c hc => hc
    | cons e es ih =>
      obtain ⟨he, hes⟩ := List.forall_mem_cons.1 hes
      exact fun c hc => ih hes _ (hc.set he e.2)
  exact hfrom empty tidy_empty

/-! ### The listing -/

theorem known_sublist (c : Context Value) : (c.known.map (·.1)).Sublist fieldNames :=
  List.filter_sublist.map Prod.fst

theorem listing_of_tidy (h : c.Tidy) (hlisted : c.get "to_dict" = none) :
    c.listing = .ok (c.known ++ c.extra) := by
  have hhidden : c.hidden.lookup "to_dict" = none := hlisted
  have hwhole : c.isCurtailed = false := by
    rw [isCurtailed, h.single]
    rfl
  unfold listing
  rw [hhidden]
  simp only [hwhole, Bool.false_eq_true, if_false]
  rw [foldl_setEntry_of_new h.nodup]
  exact fun name hname hknown => (h.other name hname).1 ((known_sublist c).subset hknown)

theorem lookup_known (c : Context Value) (name : String) : c.known.lookup name =
    if name ∈ fieldNames then (c.get name).filter Value.nonNull else none := by
  split
  · next hname =>
    let fields := [("key", c.key), ("command", c.command), ("backend", c.backend), ("index", c.index)]
    have hnodup : (fields.map (·.1)).Nodup := show fieldNames.Nodup by decide
    have hget : fields.lookup name = c.get name := by
      simp only [fieldNames, List.mem_cons, List.not_mem_nil, or_false] at hname
      rcases hname with rfl | rfl | rfl | rfl <;> rfl
    have hfields := lookup_filter hnodup Value.nonNull name
    rw [← hget, ← hfields]
    rfl
  · next hname => exact lookup_eq_none_of_notMem fun hknown => hname ((known_sublist c).subset hknown)

theorem get_of_notField (h : name ∉ fieldNames) :
    c.get name = if name ∈ ownNames then c.hidden.lookup name else c.extra.lookup name := by
  simp only [fieldNames, List.mem_cons, List.not_mem_nil, or_false, not_or] at h
  obtain ⟨hkey, hcommand, hbackend, hindex⟩ := h
  unfold get
  rw [if_neg hkey, if_neg hcommand, if_neg hbackend, if_neg hindex]

/-- What is not the context's own is shown, fields unless they are null. -/
theorem lookup_listed (h : c.Tidy) (name : String) : (c.known ++ c.extra).lookup name =
    if name ∈ fieldNames then (c.get name).filter Value.nonNull
    else if name ∈ ownNames then none else c.get name := by
  rw [List.lookup_append, lookup_known]
  split
  · next hfield =>
    have hnone : c.extra.lookup name = none :=
      lookup_eq_none_of_notMem fun hextra => (h.other name hextra).1 hfield
    rw [hnone, Option.or_none]
  · next hfield =>
    rw [Option.none_or]
    split
    · next hown => exact lookup_eq_none_of_notMem fun hextra => (h.other name hextra).2 hown
    · next hown => rw [get_of_notField hfield, if_neg hown]

theorem nodup_listed (h : c.Tidy) : ((c.known ++ c.extra).map (·.1)).Nodup := by
  rw [List.map_append, List.nodup_append]
  refine ⟨(known_sublist c).nodup (by decide), h.nodup, ?_⟩
  intro name hknown other hextra heq
  exact (h.other other hextra).1 (heq ▸ (known_sublist c).subset hknown)

/-! ### What a new context remembers -/

theorem get_empty (name : String) :
    (empty : Context Value).get name = if name ∈ fieldNames then some .null else none := by
  split
  · next hfield =>
    simp only [fieldNames, List.mem_cons, List.not_mem_nil, or_false] at hfield
    rcases hfield with rfl | rfl | rfl | rfl <;> rfl
  · next hfield =>
    rw [get_of_notField hfield]
    split <;> rfl

/-- The context of a new error that was given the entries of some calls. -/
def given (calls : List (List (String × Value))) : Context Value :=
  calls.flatten.foldl (fun c (name, v) => c.set name v) empty

/-- Where no name is refused, no call gives all the fields at once. -/
theorem plain_of_names (hnames : ∀ entries ∈ calls, ∀ e ∈ entries, e.1 ∉ refusedNames) :
    Plain calls.flatten := by
  intro e he hdict
  obtain ⟨entries, hentries, he⟩ := List.mem_flatten.1 he
  exact hnames entries hentries e he (by rw [hdict]; decide)

theorem get_given (hcalls : Plain calls.flatten) (name : String) : (given calls).get name =
    (lastGiven calls name).or (if name ∈ fieldNames then some .null else none) := by
  unfold given
  rw [get_foldl_set hcalls, get_empty]
  rfl

theorem tidy_given (hcalls : Plain calls.flatten) : (given calls).Tidy := tidy_foldl_set hcalls

theorem notField_of_own (h : name ∈ ownNames) : name ∉ fieldNames :=
  (show ∀ n ∈ ownNames, n ∉ fieldNames by decide) name h

theorem get_given_own (hcalls : Plain calls.flatten) (h : name ∈ ownNames) :
    (given calls).get name = lastGiven calls name := by
  rw [get_given hcalls, if_neg (notField_of_own h), Option.or_none]

theorem lookup_given (hcalls : Plain calls.flatten) (name : String) :
    ((given calls).known ++ (given calls).extra).lookup name =
      if name ∈ ownNames then none else due calls name := by
  rw [lookup_listed (tidy_given hcalls), get_given hcalls]
  unfold due
  by_cases hfield : name ∈ fieldNames
  · have hown : name ∉ ownNames := fun hown => notField_of_own hown hfield
    rw [if_pos hfield, if_pos hfield, if_neg hown, if_pos hfield]
    -- a field that was never given is null, and left out like any other null field
    cases lastGiven calls name <;> rfl
  · rw [if_neg hfield, if_neg hfield, if_neg hfield, Option.or_none]

/-! ### Calls -/

theorem admitted_of (h : ∀ e ∈ es, e.1 ∉ refusedNames) : admitted es = (es, none) := by
  induction es with
  | nil => rfl
  | cons e es ih =>
    obtain ⟨name, v⟩ := e
    have hname := h (name, v) (List.mem_cons_self ..)
    simp only [refusedNames, List.mem_cons, List.not_mem_nil, or_false, not_or] at hname
    have hnone : refusal? name v = none := by
      unfold refusal?
      simp only [if_neg hname.2.1, if_neg hname.2.2.1, if_neg hname.2.2.2]
    unfold admitted
    rw [hnone, ih fun e' he => h e' (List.mem_cons_of_mem _ he)]

end Context

namespace Fault

theorem annotate_of_admitted {entries : List (String × Value)}
    (h : ∀ e ∈ entries, e.1 ∉ Context.refusedNames) (f : Fault) :
    f.annotate entries = (f.within entries, none) := by
  have hclash : clash? "DocProgError.with_context()" ["self"] entries = none := by
    unfold clash?
    rw [List.find?_eq_none.2, Option.map_none]
    intro e he hself
    have hname : e.1 = "self" := List.mem_singleton.1 (List.contains_iff_mem.1 hself)
    exact h e he (hname ▸ List.mem_cons_self ..)
  unfold annotate
  rw [hclash, Context.admitted_of h]

theorem annotateAll_store {d : Details Value Fault} {calls : List (List (String × Value))}
    (hnew : d.context = Context.empty)
    (hnames : ∀ entries ∈ calls, ∀ e ∈ entries, e.1 ∉ Context.refusedNames) :
    (Fault.store d).annotateAll calls = .store { d with context := Context.given calls } := by
  have hfrom : ∀ c : Context Value, (Fault.store { d with context := c }).annotateAll calls =
      .store { d with context := calls.flatten.foldl (fun c (name, v) => c.set name v) c } := by
    induction calls with
    | nil => exact fun c => rfl
    | cons entries calls ih =>
      intro c
      unfold annotateAll
      rw [List.foldl_cons, annotate_of_admitted (hnames entries (List.mem_cons_self ..)),
        List.flatten_cons, List.foldl_append]
      exact ih (fun es hes => hnames es (List.mem_cons_of_mem _ hes)) _
  unfold Context.given
  rw [← hfrom, ← hnew]

/-- The context is listed unless it is empty. -/
theorem lookup_report (d : Details Value Fault) (context : List (String × Value)) :
    (report d context).lookup "context" = if context.isEmpty then none else some (.record context) := by
  unfold report
  cases context.isEmpty <;> cases d.cause <;> dsimp only <;> repeat' split
  all_goals simp_all [List.lookup_cons]

end Fault

/-! ## Top theorems -/

/-- A new error that is given entries, none of them under a refused name, takes every call and shows under
each name the value that was given last.  Of names that its context answers to by itself it shows nothing,
and no listing is left once `to_dict` has been given.  Besides that only a cause whose message cannot be
written keeps it from being listed. -/
theorem contexts_accumulate (d : Details Value Fault) (calls : List (List (String × Value)))
    (hnew : d.context = Context.empty)
    (hnames : ∀ entries ∈ calls, ∀ e ∈ entries, e.1 ∉ Context.refusedNames) :
    (∀ entries ∈ calls, ∀ f : Fault, f.annotate entries = (f.within entries, none)) ∧
    (d.cause.all Fault.hasMessage = true → (∀ name ∈ Context.ownNames, lastGiven calls name = none) →
      ((Fault.store d).annotateAll calls).Shows d (due calls)) ∧
    (d.cause.all Fault.hasMessage = true → lastGiven calls "to_dict" = none →
      ((Fault.store d).annotateAll calls).Shows d
        fun name => if name ∈ Context.ownNames then none else due calls name) ∧
    (d.cause.all Fault.hasMessage = false → lastGiven calls "to_dict" = none →
      ((Fault.store d).annotateAll calls).listing = .error (.ofNumeral .tooLarge)) ∧
    ∀ v, lastGiven calls "to_dict" = some v → ((Fault.store d).annotateAll calls).listing =
      .error (.wrongType s!"'{v.typeName}' object is not callable") := by
  have hall := Fault.annotateAll_store hnew hnames
  have hplain := Context.plain_of_names hnames
  have hlisting : lastGiven calls "to_dict" = none →
      (Context.given calls).listing = .ok ((Context.given calls).known ++ (Context.given calls).extra) := by
    intro hlisted
    refine Context.listing_of_tidy (Context.tidy_given hplain) ?_
    rw [Context.get_given_own hplain (by decide), hlisted]
  have hshows : d.cause.all Fault.hasMessage = true → lastGiven calls "to_dict" = none →
      ((Fault.store d).annotateAll calls).Shows d
        fun name => if name ∈ Context.ownNames then none else due calls name := by
    intro hcause hlisted
    refine ⟨(Context.given calls).known ++ (Context.given calls).extra, ?_,
      Context.nodup_listed (Context.tidy_given hplain), Context.lookup_given hplain, Fault.lookup_report d _⟩
    rw [hall]
    simp only [Fault.listing, hlisting hlisted, hcause, bind, Except.bind, if_true]
    rfl
  refine ⟨fun entries hentries f => Fault.annotate_of_admitted (hnames entries hentries) f,
    ?_, hshows, ?_, ?_⟩
  · intro hcause hown
    have hdue : (fun name => if name ∈ Context.ownNames then none else due calls name) = due calls := by
      funext name
      split
      · next hname =>
        unfold due
        rw [hown name hname, Option.filter_none, ite_self]
      · rfl
    exact hdue ▸ hshows hcause (hown "to_dict" (by decide))
  · intro hcause hlisted
    rw [hall]
    simp only [Fault.listing, hlisting hlisted, hcause, bind, Except.bind]
    rfl
  · intro v hv
    have hhidden : (Context.given calls).hidden.lookup "to_dict" = some v :=
      (Context.get_given_own hplain (by decide)).trans hv
    rw [hall]
    simp only [Fault.listing, Context.listing, hhidden, bind, Except.bind]
    rfl

/-- An error with nothing in its context. -/
def boom : Details Value Fault := Fault.make .general "boom"

/-- Names that are fields, names that are not, and a field that is taken back. -/
def retakenEntries : List (List (String × Value)) :=
  [[("key", .text "k"), ("stage", .text "map")], [("stage", .int 2), ("key", .null), ("metadata", .null)]]

/-- The last value of each name is shown; the key is null in the end. -/
theorem entries_shown :
    boom.context = Context.empty ∧
    (∀ entries ∈ retakenEntries, ∀ e ∈ entries, e.1 ∉ Context.refusedNames) ∧
    boom.cause.all Fault.hasMessage = true ∧
    (∀ name ∈ Context.ownNames, lastGiven retakenEntries name = none) ∧
    ((Fault.store boom).annotateAll retakenEntries).Shows boom (due retakenEntries) ∧
    due retakenEntries "stage" = some (.int 2) ∧ due retakenEntries "key" = none ∧
    due retakenEntries "metadata" = some .null := by
  have hnames : ∀ entries ∈ retakenEntries, ∀ e ∈ entries, e.1 ∉ Context.refusedNames := by decide
  have hown : ∀ name ∈ Context.ownNames, lastGiven retakenEntries name = none := by decide
  obtain ⟨-, hshows, -⟩ := contexts_accumulate boom retakenEntries rfl hnames
  exact ⟨rfl, hnames, rfl, hown, hshows rfl hown, rfl, rfl, rfl⟩

/-- A name that every context answers to by itself is taken without an error, and is not shown; and the name
of the listing takes the listing away. -/
theorem module_not_shown :
    (∀ entries ∈ [[("__module__", Value.text "billing")]], ∀ f : Fault,
      f.annotate entries = (f.within entries, none)) ∧
    due [[("__module__", .text "billing")]] "__module__" = some (.text "billing") ∧
    ¬ ((Fault.store boom).annotateAll [[("__module__", .text "billing")]]).Shows boom
      (due [[("__module__", .text "billing")]]) ∧
    ∀ fields, ((Fault.store boom).annotateAll [[("to_dict", .text "billing")]]).listing ≠ .ok fields := by
  have hlisting : ((Fault.store boom).annotateAll [[("__module__", .text "billing")]]).listing =
      .ok (Fault.report boom []) := rfl
  refine ⟨?_, rfl, ?_, ?_⟩
  · intro entries hentries f
    rw [List.mem_singleton.1 hentries]
    exact Fault.annotate_of_admitted (by decide) f
  · rintro ⟨context, hcontext, -, hlookup, hlisted⟩
    rw [hlisting] at hcontext
    have hnone : some (Value.text "billing") = context.lookup "__module__" := (hlookup "__module__").symm
    rw [← Except.ok.inj hcontext, Fault.lookup_report] at hlisted
    cases context with
    | nil => cases hnone
    | cons e es => cases hlisted
  · intro fields hfields
    cases hfields

end CasStore
