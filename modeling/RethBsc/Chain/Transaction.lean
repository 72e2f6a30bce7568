import RethBsc.Chain.Header

/-!
# Transactions

The transactions of `reth_primitives`, with what the block executor reads of them, and
`set_nonce` of `src/node/evm/util.rs`.
-/

namespace RethBsc

open Rust

inductive TxType where
  | legacy | eip2930 | eip1559 | eip4844 | eip7702
  deriving DecidableEq

/-- A transaction before it is signed. -/
structure Transaction where
  txType : TxType
  chainId : Option UInt64
  nonce : UInt64
  gasLimit : UInt64
  /-- The gas price of a legacy transaction. -/
  maxFeePerGas : Nat
  value : Nat
  input : Bytes
  /-- `to`, absent when the transaction creates a contract. -/
  toAddr : Option Address
  /-- The encoded remaining fields, such as access list and blob hashes, which the executor does
  not look at. -/
  rest : Bytes
  deriving DecidableEq

/-- The five variants differ in their other fields only. -/
def setNonce (transaction : Transaction) (nonce : UInt64) : Transaction := { transaction with nonce }

structure TransactionSigned where
  transaction : Transaction
  signature : FixedBytes 65
  deriving DecidableEq

end RethBsc
