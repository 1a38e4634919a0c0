import GpuCluster.Mgmt.Enroll

/-! # What an enrolled host is handed

A successful enrollment answers with the node id and with a client certificate
that the cluster's authority signs for the same id.
-/

namespace GpuCluster.Mgmt

open Common

/-- A leaf certificate, by the fields `issue_node_cert` sets. The PEM text is an
encoding of them. -/
structure NodeCert where
  subjectAltName : String
  commonName : String
  organizationalUnit : String
  notAfter : ℤ
  publicKey : String
  deriving DecidableEq

/-- A generated key pair. -/
structure LeafKey where
  publicKey : String
  keyPem : String
  deriving DecidableEq

/-- `issue_node_cert`, without the signature. -/
def issueNodeCert (nodeId : String) (validDays : ℕ) (now : ℤ) (leafKey : LeafKey) : NodeCert where
  subjectAltName := nodeId ++ ".nodes.cluster.local"
  commonName := nodeId
  organizationalUnit := "worker-node"
  notAfter := now + seconds (validDays * 24 * 3600)
  publicKey := leafKey.publicKey

structure EnrollResponse where
  nodeId : String
  clientCert : NodeCert
  clientKeyPem : String
  caChainPem : String
  coordinatorEndpoint : String
  certExpiresAt : ℤ
  wgConfigIni : Option String
  deriving DecidableEq

/-- What the answer takes from the service's own state and from the mesh. -/
structure EnrollContext where
  leafKey : LeafKey
  caChainPem : String
  coordinatorEndpoint : String
  wgConfigIni : Option String
  deriving DecidableEq

/-- The `Ok` answer of `complete` for a call that enrolled `nodeId`. -/
def Attempt.response (a : Attempt) (nodeId : String) (context : EnrollContext) :
    EnrollResponse where
  nodeId := nodeId
  clientCert := issueNodeCert nodeId nodeCertValidDays a.now context.leafKey
  clientKeyPem := context.leafKey.keyPem
  caChainPem := context.caChainPem
  coordinatorEndpoint := context.coordinatorEndpoint
  certExpiresAt := a.now + seconds (nodeCertValidDays * 24 * 3600)
  wgConfigIni := context.wgConfigIni

end GpuCluster.Mgmt
