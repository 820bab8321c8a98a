/-
# Analysis.QueryId — the number of a TPC-H query

A line of the levels file is found by the number of the query. The server computes it from the
text of the statement (`identify_query`, utils/init/globals.c), the prediction script from the
text that Level.py has stored (Model/LevelPredict/utils/tpch_sql.py). Both look for the first of
the same 22 texts, in the same order. What Level.py stores has one space for every run of blanks
and tabs; so a text that is found in the statement is found in what is stored, but not the other
way around: `identifyQuery_stored_iff`.
-/
import Hex.Analysis.LevelScript

namespace Hex.Analysis.QueryId

open Theory.CText Theory.PyText
open LevelScript

/-- The texts by which a query is known, with its number. -/
abbrev Queries := List (Int × List String)

/-- One of the texts of a query occurs in a statement: `strstr` in C, and `in` in Python. -/
def Occurs (sql : Text) (query : Int × List String) : Prop := ∃ t ∈ query.2, t.toList <:+: sql

instance (sql : Text) : DecidablePred (Occurs sql) := fun query =>
  inferInstanceAs (Decidable (∃ t ∈ query.2, t.toList <:+: sql))

def firstQuery (queries : Queries) (sql : Text) : Option (Int × List String) := queries.find? (Occurs sql ·)

/-- The number of the first query that occurs, and -1 if there is none. -/
def identify (queries : Queries) (sql : Text) : Int := ((firstQuery queries sql).map Prod.fst).getD (-1)

namespace Server

/-- The macros `QUERY_1` to `QUERY_22`, in the order of the tests in `identify_query`. -/
def queries : Queries :=
  [(1, ["select l_returnflag, l_linestatus, sum(l_quantity) as sum_qty"]),
    (2, ["select s_acctbal, s_name, n_name, p_partkey, p_mfgr, s_address, s_phone, s_comment"]),
    (3, ["select l_orderkey, sum(l_extendedprice * (1 - l_discount)) as revenue, o_orderdate"]),
    (4, ["select o_orderpriority, count(*) as order_count"]),
    (5, ["select n_name, sum(l_extendedprice * (1 - l_discount)) as revenue"]),
    (6, ["select sum(l_extendedprice * l_discount) as revenue"]),
    (7, ["select supp_nation, cust_nation, l_year, sum(volume) as revenue"]),
    (8, ["select o_year, sum(case when nation = 'BRAZIL' then volume else 0 end) / sum(volume) as mkt_share"]),
    (9, ["select nation, o_year, sum(amount) as sum_profit"]),
    (10, ["select c_custkey, c_name, sum(l_extendedprice * (1 - l_discount)) as revenue"]),
    (11, ["select ps_partkey, sum(ps_supplycost * ps_availqty) as value"]),
    (12, ["select l_shipmode, sum(case when o_orderpriority ="]),
    (13, ["select c_count, count(*) as custdist"]),
    (14, ["select 100.00 * sum(case when p_type like"]),
    (15, ["create view revenue0 (supplier_no, total_revenue)",
      "select l_suppkey, sum(l_extendedprice * (1 - l_discount))"]),
    (16, ["select p_brand, p_type, p_size, count(distinct ps_suppkey) as supplier_cnt"]),
    (17, ["select sum(l_extendedprice) / 7.0 as avg_yearly"]),
    (18, ["select c_name, c_custkey, o_orderkey, o_orderdate, o_totalprice"]),
    (19, ["select sum(l_extendedprice* (1 - l_discount)) as revenue"]),
    (20, ["select s_name, s_address from supplier"]),
    (21, ["select s_name, count(*) as numwait"]),
    (22, ["select cntrycode, count(*) as numcust"])]

def identifyQuery (sqlQuery : Text) : Int := identify queries sqlQuery

end Server

namespace Script

/-- The dictionary `QUERIES`. -/
def queries : Queries :=
  [(1, ["select l_returnflag, l_linestatus, sum(l_quantity) as sum_qty"]),
    (2, ["select s_acctbal, s_name, n_name, p_partkey, p_mfgr, s_address, s_phone, s_comment"]),
    (3, ["select l_orderkey, sum(l_extendedprice * (1 - l_discount)) as revenue, o_orderdate"]),
    (4, ["select o_orderpriority, count(*) as order_count"]),
    (5, ["select n_name, sum(l_extendedprice * (1 - l_discount)) as revenue"]),
    (6, ["select sum(l_extendedprice * l_discount) as revenue"]),
    (7, ["select supp_nation, cust_nation, l_year, sum(volume) as revenue"]),
    (8, ["select o_year, sum(case when nation = 'BRAZIL' then volume else 0 end) / sum(volume) as mkt_share"]),
    (9, ["select nation, o_year, sum(amount) as sum_profit"]),
    (10, ["select c_custkey, c_name, sum(l_extendedprice * (1 - l_discount)) as revenue"]),
    (11, ["select ps_partkey, sum(ps_supplycost * ps_availqty) as value"]),
    (12, ["select l_shipmode, sum(case when o_orderpriority ="]),
    (13, ["select c_count, count(*) as custdist"]),
    (14, ["select 100.00 * sum(case when p_type like"]),
    (15, ["create view revenue0 (supplier_no, total_revenue)",
      "select l_suppkey, sum(l_extendedprice * (1 - l_discount))"]),
    (16, ["select p_brand, p_type, p_size, count(distinct ps_suppkey) as supplier_cnt"]),
    (17, ["select sum(l_extendedprice) / 7.0 as avg_yearly"]),
    (18, ["select c_name, c_custkey, o_orderkey, o_orderdate, o_totalprice"]),
    (19, ["select sum(l_extendedprice* (1 - l_discount)) as revenue"]),
    (20, ["select s_name, s_address from supplier"]),
    (21, ["select s_name, count(*) as numwait"]),
    (22, ["select cntrycode, count(*) as numcust"])]

def identifyQuery (sqlQuery : Text) : Int := identify queries sqlQuery

end Script

lemma queries_eq : Server.queries = Script.queries := rfl

/-! ## The order of the queries -/

/-- Of two predicates on the queries of a table with one number each, where the one implies the other,
both find the same number if and only if the first query that has the weaker one has both. -/
lemma identify_eq_iff {queries : Queries} {raw stored : Text} (distinct : (queries.map Prod.fst).Nodup)
    (numbered : ∀ query ∈ queries, query.1 ≠ -1) (weaker : ∀ query ∈ queries, Occurs raw query → Occurs stored query) :
    identify queries raw = identify queries stored ↔
      ∀ query, firstQuery queries stored = some query → Occurs raw query := by
  constructor
  · intro same query first
    have member := List.mem_of_find?_eq_some first
    rw [identify, identify, first] at same
    cases found : firstQuery queries raw with
    | none =>
      rw [found] at same
      exact absurd same.symm (numbered query member)
    | some other =>
      rw [found] at same
      have eq := List.inj_on_of_nodup_map distinct (List.mem_of_find?_eq_some found) member same
      have occurs := (List.find?_eq_some_iff_append.mp found).1
      exact eq ▸ of_decide_eq_true occurs
  · intro found
    suffices firstQuery queries raw = firstQuery queries stored by rw [identify, identify, this]
    cases first : firstQuery queries stored with
    | none =>
      refine List.find?_eq_none.mpr fun query member occurs => ?_
      exact List.find?_eq_none.mp first query member (decide_eq_true (weaker query member (of_decide_eq_true occurs)))
    | some query =>
      obtain ⟨_, before, behind, rfl, others⟩ := List.find?_eq_some_iff_append.mp first
      refine List.find?_eq_some_iff_append.mpr ⟨decide_eq_true (found query first), before, behind, rfl, ?_⟩
      intro other member
      have absent := others other member
      rw [Bool.not_eq_true', decide_eq_false_iff_not] at absent ⊢
      exact fun occurs => absent (weaker other (List.mem_append_left _ member) occurs)

/-! ## What is stored -/

/-- A text without blanks around it, and with one space where it has one. -/
def Plain (t : Text) : Prop := Trimmed t ∧ t ≠ [] ∧ squeeze false t = t

instance (t : Text) : Decidable (Plain t) :=
  have : Decidable (Trimmed t) :=
    @instDecidableAnd _ _ (Option.decidableForallMem t.head?) (Option.decidableForallMem t.getLast?)
  inferInstanceAs (Decidable (Trimmed t ∧ t ≠ [] ∧ squeeze false t = t))

lemma queries_plain : ∀ query ∈ Script.queries, ∀ t ∈ query.2, Plain t.toList := by decide +kernel

/-- A text that is found in a statement is found in what is stored of it. -/
lemma occurs_normalised {sql : Text} {query : Int × List String} (member : query ∈ Script.queries)
    (occurs : Occurs sql query) : Occurs (normalised sql) query := by
  obtain ⟨t, among, found⟩ := occurs
  obtain ⟨trimmed, some, kept⟩ := queries_plain query member t among
  exact ⟨t, among, infix_strip trimmed some (infix_squeeze trimmed.1 kept found)⟩

/-- **When the server and the prediction script agree on the number of a query**: if and only if
the first query that occurs in the stored text occurs in the text of the statement as well. -/
theorem identifyQuery_stored_iff (sql : Text) : Server.identifyQuery sql = Script.identifyQuery (normalised sql) ↔
      ∀ query, firstQuery Script.queries (normalised sql) = some query → Occurs sql query := by
  rw [Server.identifyQuery, queries_eq, Script.identifyQuery]
  exact identify_eq_iff (by decide) (by decide) fun _ => occurs_normalised

/-- Two spaces in the text of query 22: the script has number 22, the server none. -/
theorem twoSpaces_identifyQuery : Server.identifyQuery "select  cntrycode, count(*) as numcust".toList = -1 ∧
      Script.identifyQuery (normalised "select  cntrycode, count(*) as numcust".toList) = 22 := by
  decide +kernel

end Hex.Analysis.QueryId
