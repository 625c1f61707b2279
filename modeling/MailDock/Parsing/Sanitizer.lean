import MailDock.Lib.Forest
import MailDock.Search.Query

/-!
# Sanitizing HTML bodies

`html_sanitizer.py` works on the tree the HTML parser makes of a mail body: it takes away what can
act, brings the document into the shape of a page, and puts a content security policy first in the
head.  A browser applies the policy to what comes after it.  The case folding of characters
outside ASCII is a parameter.

## Main definitions

- `removeUnsafeContent`, `ensureDocumentStructure`, `sanitizeMailHtml` — the functions of the module
- `Sanitized` — no active content is left, and the policy comes before the content
- `headComesFirst` — whether the head of the page stands before its content

## Main results

- `sanitizeMailHtml_cleans` — what is left of the mail does not act
- `sanitizeMailHtml_sanitized_iff` — the policy comes first when the head does
-/

namespace MailDock

open Forest

/-! ## Trees -/

/-- The value of an attribute; the values of `class` and its like are lists. -/
inductive AttributeValue
  | text (value : String)
  | tokens (values : List String)
deriving DecidableEq, Repr

structure Tag where
  name : String
  attrs : List (String × AttributeValue) := []
deriving DecidableEq, Repr

/-- A string of the tree: text, or a comment, a doctype, a declaration. -/
inductive PageString
  | text (value : String)
  | markup (value : String)
deriving DecidableEq, Repr

abbrev PageNode := Tree Tag PageString

abbrev PageItem := Tag ⊕ PageString

section
variable (fold : Char → List Char)

/-- `str.casefold`, where `fold` knows the characters outside ASCII. -/
def casefold (text : List Char) : List Char :=
  text.flatMap fun c => if c.toNat < 128 then [c.toLower] else fold c

/-- `_attribute_text`. -/
def Tag.attributeText (tag : Tag) (name : String) : List Char :=
  match tag.attrs.lookup name with
  | none => []
  | some (.text value) => value.toList
  | some (.tokens values) => (" ".intercalate values).toList

/-- `_is_dangerous_url`; the text of a list begins with a bracket. -/
def isDangerousUrl : AttributeValue → Bool
  | .text value =>
    let normalized := casefold fold (value.toList.filter fun c => !(c.toNat ≤ 0x20))
    "javascript:".toList.isPrefixOf normalized || "data:".toList.isPrefixOf normalized
  | .tokens _ => false

/-! ## Removing -/

def removedTags : List String :=
  ["script","iframe","frame","object","embed","form","link","base"]

def isRemoved (tag : Tag) : Bool := removedTags.contains tag.name

/-- A policy or a refresh that the mail brings along. -/
def isPolicyMeta (tag : Tag) : Bool :=
  tag.name == "meta" &&
    (casefold fold (tag.attributeText "http-equiv") == "content-security-policy".toList ||
      casefold fold (tag.attributeText "http-equiv") == "refresh".toList)

def isUnsafeAttribute (attr : String × AttributeValue) : Bool :=
  let normalized := casefold fold attr.1.toList
  "on".toList.isPrefixOf normalized ||
    ((normalized == "href".toList || normalized == "src".toList) &&
      isDangerousUrl fold attr.2)

def cleanAttributes (tag : Tag) : Tag :=
  { tag with attrs := tag.attrs.filter fun attr => !isUnsafeAttribute fold attr }

/-- `_remove_unsafe_content`. -/
def removeUnsafeContent (soup : List PageNode) : List PageNode :=
  relabel (cleanAttributes fold) (prune (isPolicyMeta fold) (prune isRemoved soup))

end

/-! ## The shape of a page -/

/-- The first child of a name, with its siblings before and after it. -/
def splitChild (name : String) : List PageNode →
    Option (List PageNode × (Tag × List PageNode) × List PageNode)
  | [] => none
  | .branch tag children :: rest =>
    if tag.name = name then some ([],(tag,children),rest)
    else (splitChild name rest).map fun r => (.branch tag children :: r.1,r.2)
  | .leaf s :: rest => (splitChild name rest).map fun r => (.leaf s :: r.1,r.2)

/-- A page, from the point of view of its head. -/
structure Page where
  /-- What stands before the root. -/
  before : List PageNode := []
  root : Tag := { name := "html" }
  /-- The children of the root before the head. -/
  front : List PageNode := []
  head : Tag := { name := "head" }
  headChildren : List PageNode
  /-- The children of the root after the head. -/
  back : List PageNode
  after : List PageNode := []

/-- The children of the root. -/
def Page.contents (page : Page) : List PageNode :=
  page.front ++ .branch page.head page.headChildren :: page.back

def Page.nodes (page : Page) : List PageNode :=
  page.before ++ .branch page.root page.contents :: page.after

def newBody (children : List PageNode) : PageNode := .branch { name := "body" } children

/-- What a page without a root puts into its head. -/
def headContents (soup : List PageNode) : List PageNode :=
  soup.flatMap fun node =>
    match node with
    | .branch tag children => if tag.name = "head" then children else []
    | .leaf _ => []

def bodyContents (soup : List PageNode) : List PageNode :=
  soup.flatMap fun node =>
    match node with
    | .branch tag children =>
      if tag.name = "head" then []
      else if tag.name = "body" then children
      else [.branch tag children]
    | .leaf s => [.leaf s]

/-- The first head of a root, or a new one. -/
def ensureHead (before after : List PageNode) (root : Tag) (children : List PageNode) : Page :=
  match splitChild "head" children with
  | none => { before,root,headChildren := [],back := children,after }
  | some (front,(head,headChildren),back) => { before,root,front,head,headChildren,back,after }

/-- Without a body, all children of the root but its head go into a new one. -/
def Page.ensureBody (page : Page) : Page :=
  match splitChild "body" page.contents with
  | some _ => page
  | none => { page with front := [],back := [newBody (page.front ++ page.back)] }

/-- `_ensure_document_structure`. -/
def ensureDocumentStructure (soup : List PageNode) : Page :=
  match splitChild "html" soup with
  | none => { headChildren := headContents soup,back := [newBody (bodyContents soup)] }
  | some (before,(root,children),after) => (ensureHead before after root children).ensureBody

def cspContent (allowRemoteImages : Bool) : String :=
  "default-src 'none'; img-src " ++ (if allowRemoteImages then "cid: https: http:" else "cid:") ++
    "; style-src 'unsafe-inline'; form-action 'none'; frame-src 'none'"

def cspMeta (allowRemoteImages : Bool) : Tag :=
  { name := "meta"
    attrs := [("http-equiv",.text "Content-Security-Policy"),
      ("content",.text (cspContent allowRemoteImages))] }

/-- `head.insert(0,csp_meta)`. -/
def Page.withPolicy (page : Page) (policy : Tag) : List PageNode :=
  { page with headChildren := .branch policy [] :: page.headChildren }.nodes

/-- `sanitize_mail_html`, between the parser and the serializer. -/
def sanitizeMailHtml (fold : Char → List Char) (allowRemoteImages : Bool) (soup : List PageNode) :
    List PageNode :=
  (ensureDocumentStructure (removeUnsafeContent fold soup)).withPolicy (cspMeta allowRemoteImages)

/-! ## What is asked of the result -/

/-- An element other than `html` and `head`, or a text that is not blank. -/
def isContent : PageItem → Bool
  | .inl tag => !(tag.name == "html" || tag.name == "head")
  | .inr (.text value) => !value.toList.all isSpace
  | .inr (.markup _) => false

/-- A tag that does nothing of its own. -/
structure Tag.Inert (fold : Char → List Char) (tag : Tag) : Prop where
  kept : tag.name ∉ removedTags
  noHandler : ∀ attr ∈ tag.attrs, ¬ "on".toList <+: casefold fold attr.1.toList
  noScriptUrl : ∀ attr ∈ tag.attrs,
    casefold fold attr.1.toList ∈ ["href".toList,"src".toList] →
      isDangerousUrl fold attr.2 = false

/-- The policy comes before the content. -/
def PolicyLeads (policy : Tag) (nodes : List PageNode) : Prop :=
  ∃ front back,preorder nodes = front ++ .inl policy :: back ∧ ∀ x ∈ front, isContent x = false

structure Sanitized (fold : Char → List Char) (policy : Tag) (nodes : List PageNode) : Prop where
  inert : ∀ tag, .inl tag ∈ preorder nodes → tag.Inert fold
  /-- The policy is the only element of its kind. -/
  onlyPolicy : (preorder nodes).filter (Sum.elim (isPolicyMeta fold) fun _ => false) = [.inl policy]
  policyLeads : PolicyLeads policy nodes

/-- Nothing that is kept of these nodes is content. -/
def isQuiet (fold : Char → List Char) (nodes : List PageNode) : Bool :=
  (preorder (removeUnsafeContent fold nodes)).all fun x => !isContent x

/-- The root comes before the content, and in a root that has a head and a body the head does. -/
def headComesFirst (fold : Char → List Char) (soup : List PageNode) : Bool :=
  match splitChild "html" soup with
  | none => true
  | some (before,(_,children),_) => isQuiet fold before &&
    match splitChild "head" children,splitChild "body" children with
    | some (front,_,_),some _ => isQuiet fold front
    | _,_ => true

/-! ## What is removed -/

section
variable {fold : Char → List Char}

/-- A tag that is inert, and no policy or refresh. -/
def Tag.Clean (fold : Char → List Char) (tag : Tag) : Prop :=
  tag.Inert fold ∧ isPolicyMeta fold tag = false

@[simp]
theorem cleanAttributes_name (tag : Tag) : (cleanAttributes fold tag).name = tag.name := rfl

theorem cleanAttributes_noHandler (tag : Tag) : ∀ attr ∈ (cleanAttributes fold tag).attrs,
    ¬ "on".toList <+: casefold fold attr.1.toList := by
  intro attr h hon
  have hsafe := (List.mem_filter.mp h).2
  rw [isUnsafeAttribute,List.isPrefixOf_iff_prefix.mpr hon] at hsafe
  cases hsafe

theorem cleanAttributes_noScriptUrl (tag : Tag) : ∀ attr ∈ (cleanAttributes fold tag).attrs,
    casefold fold attr.1.toList ∈ ["href".toList,"src".toList] →
      isDangerousUrl fold attr.2 = false := by
  intro attr h hname
  have hsafe := (List.mem_filter.mp h).2
  simp only [List.mem_cons,List.not_mem_nil,or_false] at hname
  have hnamed : (casefold fold attr.1.toList == "href".toList ||
      casefold fold attr.1.toList == "src".toList) = true := by
    rcases hname with hname | hname
    · simp [hname]
    · simp [hname]
  simp only [isUnsafeAttribute,hnamed,Bool.true_and,Bool.not_or,Bool.and_eq_true] at hsafe
  simpa using hsafe.2

/-- No attribute that is taken away says what a meta element is for. -/
theorem attributeText_cleanAttributes (tag : Tag) :
    (cleanAttributes fold tag).attributeText "http-equiv" = tag.attributeText "http-equiv" := by
  have hlookup : ∀ attrs : List (String × AttributeValue),
      (attrs.filter fun attr => !isUnsafeAttribute fold attr).lookup "http-equiv" =
        attrs.lookup "http-equiv" := by
    intro attrs
    induction attrs with
    | nil => rfl
    | cons attr attrs ih =>
      by_cases hname : attr.1 = "http-equiv"
      · have hkept : isUnsafeAttribute fold attr = false := by
          rw [isUnsafeAttribute,hname]
          rfl
        obtain ⟨name,value⟩ := attr
        cases hname
        rw [List.filter_cons_of_pos (by simp [hkept]),List.lookup_cons_self,List.lookup_cons_self]
      · have hne : ("http-equiv" == attr.1) = false := by
          simpa using fun h => hname h.symm
        rw [List.filter_cons]
        split
        · rw [List.lookup_cons,List.lookup_cons,hne,ih]
        · rw [List.lookup_cons,hne,ih]
  unfold Tag.attributeText
  rw [cleanAttributes,hlookup]

theorem removeUnsafeContent_clean {soup : List PageNode} {tag : Tag}
    (h : .inl tag ∈ preorder (removeUnsafeContent fold soup)) : tag.Clean fold := by
  obtain ⟨old,hold,rfl⟩ := mem_preorder_relabel h
  obtain ⟨hold,hmeta⟩ := mem_preorder_prune _ hold
  obtain ⟨-,hkept⟩ := mem_preorder_prune _ hold
  refine ⟨⟨?_,cleanAttributes_noHandler old,cleanAttributes_noScriptUrl old⟩,?_⟩
  · intro hremoved
    have hfalse := hkept old rfl
    rw [cleanAttributes_name] at hremoved
    rw [isRemoved,List.contains_iff_mem.mpr hremoved] at hfalse
    cases hfalse
  · rw [isPolicyMeta,attributeText_cleanAttributes]
    exact hmeta old rfl

theorem removeUnsafeContent_branch (tag : Tag) (children rest : List PageNode) :
    removeUnsafeContent fold (.branch tag children :: rest) =
      if isRemoved tag || isPolicyMeta fold tag then removeUnsafeContent fold rest
      else .branch (cleanAttributes fold tag) (removeUnsafeContent fold children) ::
        removeUnsafeContent fold rest := by
  unfold removeUnsafeContent
  rw [prune_branch]
  by_cases hremoved : isRemoved tag
  · simp [hremoved]
  · by_cases hpolicy : isPolicyMeta fold tag
    · simp [hremoved,hpolicy,prune_branch]
    · simp [hremoved,hpolicy,prune_branch,relabel,Tree.relabel]

theorem removeUnsafeContent_leaf (s : PageString) (rest : List PageNode) :
    removeUnsafeContent fold (.leaf s :: rest) = .leaf s :: removeUnsafeContent fold rest := rfl

/-- Children of a name that is never removed are found in the same place afterwards. -/
theorem splitChild_removeUnsafeContent {name : String} (hname : name ∉ removedTags)
    (hmeta : name ≠ "meta") (soup : List PageNode) :
    splitChild name (removeUnsafeContent fold soup) = (splitChild name soup).map fun r =>
      (removeUnsafeContent fold r.1,
        (cleanAttributes fold r.2.1.1,removeUnsafeContent fold r.2.1.2),
        removeUnsafeContent fold r.2.2) := by
  induction soup with
  | nil => rfl
  | cons node rest ih =>
    cases node with
    | leaf s =>
      rw [removeUnsafeContent_leaf,splitChild,splitChild,ih,Option.map_map,Option.map_map]
      rfl
    | branch tag children =>
      rw [removeUnsafeContent_branch]
      by_cases hdropped : (isRemoved tag || isPolicyMeta fold tag) = true
      · -- a removed element has another name
        have hother : tag.name ≠ name := by
          rintro rfl
          rcases Bool.or_eq_true_iff.mp hdropped with hremoved | hpolicy
          · exact hname (List.contains_iff_mem.mp hremoved)
          · exact hmeta (by simpa using (Bool.and_eq_true_iff.mp hpolicy).1)
        rw [if_pos hdropped,splitChild,if_neg hother,ih,Option.map_map]
        congr 1
        funext r
        simp [removeUnsafeContent_branch,hdropped]
      · rw [if_neg hdropped,splitChild,splitChild,cleanAttributes_name]
        by_cases hfound : tag.name = name
        · rw [if_pos hfound,if_pos hfound]
          rfl
        · rw [if_neg hfound,if_neg hfound,ih,Option.map_map,Option.map_map]
          congr 1
          funext r
          simp [removeUnsafeContent_branch,hdropped]

/-! ## Where the policy stands -/

theorem preorder_withPolicy (page : Page) (policy : Tag) :
    preorder (page.withPolicy policy) =
      (preorder page.before ++ .inl page.root :: (preorder page.front ++ [.inl page.head])) ++
        .inl policy :: (preorder page.headChildren ++ preorder page.back ++ preorder page.after) := by
  simp [Page.withPolicy,Page.nodes,Page.contents,preorder_append,preorder,Tree.preorder]

theorem preorder_page (page : Page) :
    preorder page.nodes =
      (preorder page.before ++ .inl page.root :: (preorder page.front ++ [.inl page.head])) ++
        (preorder page.headChildren ++ preorder page.back ++ preorder page.after) := by
  simp [Page.nodes,Page.contents,preorder_append,preorder,Tree.preorder]

/-- When the policy occurs once, it leads exactly if nothing before that place is content. -/
theorem policyLeads_iff_of_split {policy : Tag} {nodes : List PageNode} {front back : List PageItem}
    (hsplit : preorder nodes = front ++ .inl policy :: back) (hfresh : .inl policy ∉ front) :
    PolicyLeads policy nodes ↔ ∀ x ∈ front, isContent x = false := by
  constructor
  · rintro ⟨front',back',hsplit',hquiet⟩ x hx
    have heq := hsplit.symm.trans hsplit'
    rcases List.append_eq_append_iff.mp heq with ⟨middle,hfront,-⟩ | ⟨middle,hfront,hback⟩
    · exact hquiet x (hfront ▸ List.mem_append_left _ hx)
    · cases middle with
      | nil =>
        rw [List.append_nil] at hfront
        exact hquiet x (hfront ▸ hx)
      | cons y middle =>
        -- the policy would stand before itself
        cases hback
        exact absurd (hfront ▸ List.mem_append_right _ List.mem_cons_self) hfresh
  · exact fun hquiet => ⟨front,back,hsplit,hquiet⟩

theorem splitChild_name {name : String} {nodes before children after : List PageNode} {tag : Tag}
    (h : splitChild name nodes = some (before,(tag,children),after)) :
    tag.name = name ∧ nodes = before ++ .branch tag children :: after := by
  induction nodes generalizing before with
  | nil => cases h
  | cons node rest ih =>
    cases node with
    | leaf s =>
      obtain ⟨⟨before',⟨tag',children'⟩,after'⟩,hrest,heq⟩ := Option.map_eq_some_iff.mp h
      cases heq
      obtain ⟨htag,hnodes⟩ := ih hrest
      exact ⟨htag,by rw [hnodes,List.cons_append]⟩
    | branch tag' children' =>
      rw [splitChild] at h
      split at h
      · next hfound =>
        cases h
        exact ⟨hfound,rfl⟩
      · obtain ⟨⟨before',⟨tag',children'⟩,after'⟩,hrest,heq⟩ := Option.map_eq_some_iff.mp h
        cases heq
        obtain ⟨htag,hnodes⟩ := ih hrest
        exact ⟨htag,by rw [hnodes,List.cons_append]⟩

/-- The page has its own names on the root and the head. -/
structure Page.Named (page : Page) : Prop where
  root : page.root.name = "html"
  head : page.head.name = "head"

theorem ensureHead_named {before after children : List PageNode} {root : Tag}
    (hroot : root.name = "html") : (ensureHead before after root children).Named := by
  unfold ensureHead
  split
  · exact ⟨hroot,rfl⟩
  · next hhead => exact ⟨hroot,(splitChild_name hhead).1⟩

theorem Page.Named.ensureBody {page : Page} (h : page.Named) : page.ensureBody.Named := by
  unfold Page.ensureBody
  split
  · exact h
  · exact ⟨h.root,h.head⟩

theorem ensureDocumentStructure_named (soup : List PageNode) :
    (ensureDocumentStructure soup).Named := by
  unfold ensureDocumentStructure
  cases hroot : splitChild "html" soup with
  | none => exact ⟨rfl,rfl⟩
  | some found =>
    obtain ⟨before,⟨root,children⟩,after⟩ := found
    exact (ensureHead_named (splitChild_name hroot).1).ensureBody

/-! ## What a page is made of -/

/-- A tag `_ensure_document_structure` makes itself. -/
def isNewTag (x : PageItem) : Prop :=
  ∃ name ∈ ["html","head","body"],x = .inl { name := name }

theorem mem_headContents {soup : List PageNode} {x : PageItem}
    (h : x ∈ preorder (headContents soup)) : x ∈ preorder soup := by
  induction soup with
  | nil => cases h
  | cons node rest ih =>
    rw [headContents,List.flatMap_cons,preorder_append] at h
    rw [preorder]
    rcases List.mem_append.mp h with h | h
    · refine List.mem_append_left _ ?_
      cases node with
      | leaf s => cases h
      | branch tag children =>
        dsimp only at h
        split at h
        · exact List.mem_cons_of_mem _ h
        · cases h
    · exact List.mem_append_right _ (ih h)

theorem mem_bodyContents {soup : List PageNode} {x : PageItem}
    (h : x ∈ preorder (bodyContents soup)) : x ∈ preorder soup := by
  induction soup with
  | nil => cases h
  | cons node rest ih =>
    rw [bodyContents,List.flatMap_cons,preorder_append] at h
    rw [preorder]
    rcases List.mem_append.mp h with h | h
    · refine List.mem_append_left _ ?_
      cases node with
      | leaf s => simpa [preorder] using h
      | branch tag children =>
        dsimp only at h
        split at h
        · cases h
        · split at h
          · exact List.mem_cons_of_mem _ h
          · simpa [preorder] using h
    · exact List.mem_append_right _ (ih h)

theorem preorder_newBody (children : List PageNode) :
    preorder [newBody children] = .inl { name := "body" } :: preorder children :=
  preorder_branch _ children

theorem mem_ensureHead {before after children : List PageNode} {root : Tag} {x : PageItem}
    (h : x ∈ preorder (ensureHead before after root children).nodes) :
    x ∈ preorder (before ++ .branch root children :: after) ∨ isNewTag x := by
  unfold ensureHead at h
  split at h
  · -- a new head
    rw [preorder_page] at h
    simp only [preorder,List.mem_append,List.mem_cons,List.not_mem_nil,List.nil_append,
      or_false] at h
    simp only [preorder_append,preorder,Tree.preorder,List.mem_append,List.mem_cons]
    rcases h with (h | h | h) | h | h
    · exact .inl (.inl h)
    · exact .inl (.inr (.inl (.inl h)))
    · exact .inr ⟨"head",by simp,h⟩
    · exact .inl (.inr (.inl (.inr h)))
    · exact .inl (.inr (.inr h))
  · next hhead =>
    rw [(splitChild_name hhead).2]
    exact .inl h

theorem mem_ensureBody {page : Page} {x : PageItem} (h : x ∈ preorder page.ensureBody.nodes) :
    x ∈ preorder page.nodes ∨ isNewTag x := by
  unfold Page.ensureBody at h
  split at h
  · exact .inl h
  · rw [preorder_page] at h
    simp only [preorder_newBody] at h
    simp only [preorder_append,preorder,List.mem_append,List.mem_cons,List.not_mem_nil,
      List.nil_append,or_false] at h
    rw [preorder_page]
    simp only [List.mem_append,List.mem_cons,List.not_mem_nil,or_false]
    rcases h with (h | h | h) | (h | h | h | h) | h
    · exact .inl (.inl (.inl h))
    · exact .inl (.inl (.inr (.inl h)))
    · exact .inl (.inl (.inr (.inr (.inr h))))
    · exact .inl (.inr (.inl (.inl h)))
    · exact .inr ⟨"body",by simp,h⟩
    · exact .inl (.inl (.inr (.inr (.inl h))))
    · exact .inl (.inr (.inl (.inr h)))
    · exact .inl (.inr (.inr h))

theorem mem_ensureDocumentStructure {soup : List PageNode} {x : PageItem}
    (h : x ∈ preorder (ensureDocumentStructure soup).nodes) : x ∈ preorder soup ∨ isNewTag x := by
  unfold ensureDocumentStructure at h
  cases hroot : splitChild "html" soup with
  | none =>
    rw [hroot,preorder_page] at h
    simp only [preorder_newBody] at h
    simp only [preorder,List.mem_append,List.mem_cons,List.not_mem_nil,List.nil_append,
      or_false] at h
    rcases h with (h | h) | h | h | h
    · exact .inr ⟨"html",by simp,h⟩
    · exact .inr ⟨"head",by simp,h⟩
    · exact .inl (mem_headContents h)
    · exact .inr ⟨"body",by simp,h⟩
    · exact .inl (mem_bodyContents h)
  | some found =>
    obtain ⟨before,⟨root,children⟩,after⟩ := found
    rw [hroot] at h
    rw [(splitChild_name hroot).2]
    rcases mem_ensureBody h with h | hnew
    · exact mem_ensureHead h
    · exact .inr hnew

/-! ## The sanitized page -/

theorem newTag_clean {name : String} (h : name ∈ ["html","head","body"]) :
    Tag.Clean fold { name := name } := by
  refine ⟨⟨?_,fun _ ha => absurd ha List.not_mem_nil,fun _ ha => absurd ha List.not_mem_nil⟩,?_⟩
  · revert name
    decide
  · have hname : (name == "meta") = false := by
      revert name
      decide
    rw [isPolicyMeta,hname,Bool.false_and]

theorem cspMeta_inert (allowRemoteImages : Bool) : (cspMeta allowRemoteImages).Inert fold := by
  have hequiv : casefold fold "http-equiv".toList = "http-equiv".toList := rfl
  have hcontent : casefold fold "content".toList = "content".toList := rfl
  refine ⟨by simp [cspMeta,removedTags],?_,?_⟩
  · intro attr h
    simp only [cspMeta,List.mem_cons,List.not_mem_nil,or_false] at h
    rcases h with rfl | rfl
    · rw [hequiv]
      decide
    · rw [hcontent]
      decide
  · intro attr h hname
    simp only [cspMeta,List.mem_cons,List.not_mem_nil,or_false] at h
    rcases h with rfl | rfl
    · rw [hequiv] at hname
      exact absurd hname (by decide)
    · rw [hcontent] at hname
      exact absurd hname (by decide)

theorem cspMeta_isPolicyMeta (allowRemoteImages : Bool) :
    isPolicyMeta fold (cspMeta allowRemoteImages) = true := rfl

theorem ensureDocumentStructure_clean {soup : List PageNode} {tag : Tag}
    (h : .inl tag ∈ preorder (ensureDocumentStructure (removeUnsafeContent fold soup)).nodes) :
    tag.Clean fold := by
  rcases mem_ensureDocumentStructure h with h | ⟨name,hname,heq⟩
  · exact removeUnsafeContent_clean h
  · cases heq
    exact newTag_clean hname

theorem filter_policy_eq_nil {items : List PageItem}
    (h : ∀ tag, .inl tag ∈ items → tag.Clean fold) :
    items.filter (Sum.elim (isPolicyMeta fold) fun _ => false) = [] := by
  refine List.filter_eq_nil_iff.mpr fun x hx => ?_
  cases x with
  | inl tag => simp [(h tag hx).2]
  | inr s => simp

/-- Nothing that acts is left of the mail, and the only policy is the one put in. -/
theorem sanitizeMailHtml_cleans (allowRemoteImages : Bool) (soup : List PageNode) :
    (∀ tag, .inl tag ∈ preorder (sanitizeMailHtml fold allowRemoteImages soup) →
      tag.Inert fold) ∧
    (preorder (sanitizeMailHtml fold allowRemoteImages soup)).filter
      (Sum.elim (isPolicyMeta fold) fun _ => false) = [.inl (cspMeta allowRemoteImages)] := by
  have hpage := preorder_page (ensureDocumentStructure (removeUnsafeContent fold soup))
  have hclean : ∀ tag, .inl tag ∈
      preorder (ensureDocumentStructure (removeUnsafeContent fold soup)).nodes → tag.Clean fold :=
    fun tag htag => ensureDocumentStructure_clean htag
  rw [hpage] at hclean
  rw [sanitizeMailHtml,preorder_withPolicy]
  constructor
  · intro tag htag
    rcases List.mem_append.mp htag with htag | htag
    · exact (hclean tag (List.mem_append_left _ htag)).1
    · rcases List.mem_cons.mp htag with htag | htag
      · cases htag
        exact cspMeta_inert allowRemoteImages
      · exact (hclean tag (List.mem_append_right _ htag)).1
  · rw [List.filter_append,
      filter_policy_eq_nil fun tag htag => hclean tag (List.mem_append_left _ htag),
      List.filter_cons_of_pos (by exact cspMeta_isPolicyMeta allowRemoteImages),
      filter_policy_eq_nil fun tag htag => hclean tag (List.mem_append_right _ htag)]
    rfl

/-- Pages whose root or whose head has content before it are told by the tree of the mail. -/
theorem ensureDocumentStructure_quiet_iff (soup : List PageNode) :
    ((∀ x ∈ preorder (ensureDocumentStructure (removeUnsafeContent fold soup)).before,
        isContent x = false) ∧
      ∀ x ∈ preorder (ensureDocumentStructure (removeUnsafeContent fold soup)).front,
        isContent x = false) ↔ headComesFirst fold soup = true := by
  have hall : ∀ nodes : List PageNode,
      (∀ x ∈ preorder (removeUnsafeContent fold nodes), isContent x = false) ↔
        isQuiet fold nodes = true := by
    intro nodes
    simp [isQuiet]
  have hsplit := fun name hname hmeta nodes =>
    @splitChild_removeUnsafeContent fold name hname hmeta nodes
  unfold ensureDocumentStructure headComesFirst
  rw [hsplit "html" (by decide) (by decide)]
  cases hroot : splitChild "html" soup with
  | none => simp [preorder]
  | some found =>
    obtain ⟨before,⟨root,children⟩,after⟩ := found
    simp only [Option.map_some]
    unfold ensureHead
    rw [hsplit "head" (by decide) (by decide)]
    have hbody := hsplit "body" (by decide) (by decide) children
    cases hhead : splitChild "head" children with
    | none =>
      -- a new head is the first child
      simp only [Option.map_none,Bool.and_true,← hall before]
      unfold Page.ensureBody
      split
      · simp [preorder]
      · simp [preorder]
    | some found =>
      obtain ⟨front,⟨head,inner⟩,back⟩ := found
      have hcontents : removeUnsafeContent fold front ++
          .branch (cleanAttributes fold head) (removeUnsafeContent fold inner) ::
            removeUnsafeContent fold back = removeUnsafeContent fold children := by
        have hfound := hsplit "head" (by decide) (by decide) children
        rw [hhead] at hfound
        exact (splitChild_name hfound).2.symm
      simp only [Option.map_some,Page.ensureBody,Page.contents,hcontents,hbody]
      cases splitChild "body" children with
      | none => simp [preorder,← hall before]
      | some r => simp [← hall before,← hall front]

theorem policyLeads_iff (allowRemoteImages : Bool) (soup : List PageNode) :
    PolicyLeads (cspMeta allowRemoteImages) (sanitizeMailHtml fold allowRemoteImages soup) ↔
      headComesFirst fold soup = true := by
  have hnamed := ensureDocumentStructure_named (removeUnsafeContent fold soup)
  have hpage := preorder_page (ensureDocumentStructure (removeUnsafeContent fold soup))
  have hroot : isContent (.inl (ensureDocumentStructure (removeUnsafeContent fold soup)).root) =
      false := by simp [isContent,hnamed.root]
  have hhead : isContent (.inl (ensureDocumentStructure (removeUnsafeContent fold soup)).head) =
      false := by simp [isContent,hnamed.head]
  rw [← ensureDocumentStructure_quiet_iff,sanitizeMailHtml,
    policyLeads_iff_of_split (preorder_withPolicy _ _)]
  · constructor
    · intro hquiet
      exact ⟨fun x hx => hquiet x (by simp [hx]),fun x hx => hquiet x (by simp [hx])⟩
    · rintro ⟨hbefore,hfront⟩ x hx
      simp only [List.mem_append,List.mem_cons,List.not_mem_nil,or_false] at hx
      rcases hx with hx | rfl | hx | rfl
      · exact hbefore x hx
      · exact hroot
      · exact hfront x hx
      · exact hhead
  · -- what the mail brings is no policy
    intro hpolicy
    have hclean : (cspMeta allowRemoteImages).Clean fold :=
      ensureDocumentStructure_clean (hpage ▸ List.mem_append_left _ hpolicy)
    rw [Tag.Clean,cspMeta_isPolicyMeta] at hclean
    cases hclean.2

/-- The page does what is asked of it when its head comes before its content. -/
theorem sanitizeMailHtml_sanitized_iff (fold : Char → List Char) (allowRemoteImages : Bool)
    (soup : List PageNode) :
    Sanitized fold (cspMeta allowRemoteImages) (sanitizeMailHtml fold allowRemoteImages soup) ↔
      headComesFirst fold soup = true := by
  obtain ⟨hinert,honly⟩ := @sanitizeMailHtml_cleans fold allowRemoteImages soup
  constructor
  · exact fun h => (policyLeads_iff allowRemoteImages soup).mp h.policyLeads
  · exact fun h => ⟨hinert,honly,(policyLeads_iff allowRemoteImages soup).mpr h⟩

end

/-- `<p>Hi</p><html><head></head><body></body></html>`. -/
def contentFirst : List PageNode :=
  [.branch { name := "p" } [.leaf (.text "Hi")],
    .branch { name := "html" } [.branch { name := "head" } [],.branch { name := "body" } []]]

theorem contentFirst_not_sanitized :
    ¬ Sanitized (fun c => [c]) (cspMeta false) (sanitizeMailHtml (fun c => [c]) false contentFirst) := by
  intro h
  have hfirst := (policyLeads_iff false contentFirst).mp h.policyLeads
  revert hfirst
  decide

end MailDock
