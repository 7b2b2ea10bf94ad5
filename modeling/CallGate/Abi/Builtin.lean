import CallGate.Abi.Registry

/-!
# The built-in registries

The calls of the first preview of the system interface, and the socket calls that one runtime adds.
The socket table comes on top of the first one: it replaces `sock_accept` in its place and puts ten
calls behind the others.

Addresses in linear memory, sizes and file descriptors are unsigned words where they are declared as
what they are; an argument that nothing more is said of is a signed word.
-/

namespace CallGate.Abi

private def u8 (name : String) : Arg := .typed name .u8
private def u16 (name : String) : Arg := .typed name .u16
private def i32 (name : String) : Arg := .typed name .i32
private def u32 (name : String) : Arg := .typed name .u32
private def i64 (name : String) : Arg := .typed name .i64
private def u64 (name : String) : Arg := .typed name .u64
private def call (name : String) (args : List Arg) : Descriptor := ⟨name, args⟩

/-- The calls of the first preview. -/
def Table.preview1 : Table :=
  ⟨"wasi_snapshot_preview1", [
    call "args_get" [i32 "arg0", i32 "arg1"],
    call "args_sizes_get" [i32 "arg0", i32 "arg1"],
    call "clock_res_get" [i32 "arg0", i32 "arg1"],
    call "clock_time_get" [u32 "clockid", u64 "precision", u32 "ret_addr"],
    call "environ_get" [u32 "env_addr", u32 "env_buf_addr"],
    call "environ_sizes_get" [u32 "env_count_addr", u32 "env_buf_size_addr"],
    call "proc_exit" [u32 "exitcode"],
    call "proc_raise" [i32 "sig"],
    call "sched_yield" [],
    call "random_get" [u32 "buf_addr", u32 "buf_len"],
    call "poll_oneoff" [u32 "in_ptr", u32 "out_ptr", u32 "nsubscriptions", u32 "nevents_ptr"],
    call "fd_advise" [i32 "arg0", i64 "arg1", i64 "arg2", i32 "arg3"],
    call "fd_allocate" [i32 "arg0", i64 "arg1", i64 "arg2"],
    call "fd_close" [u32 "fd"],
    call "fd_datasync" [i32 "arg0"],
    call "fd_fdstat_get" [u32 "fd", u32 "metadata_ptr"],
    call "fd_fdstat_set_flags" [u32 "fd", u16 "flags"],
    call "fd_fdstat_set_rights" [i32 "arg0", i64 "arg1", i64 "arg2"],
    call "fd_filestat_get" [i32 "arg0", i32 "arg1"],
    call "fd_filestat_set_size" [i32 "arg0", i64 "arg1"],
    call "fd_filestat_set_times" [i32 "arg0", i32 "arg1", i32 "arg2", i32 "arg3"],
    call "fd_pread" [i32 "arg0", i32 "arg1", i32 "arg2", i64 "arg3", i32 "arg4"],
    call "fd_prestat_get" [u32 "fd", u32 "prestat_ptr"],
    call "fd_prestat_dir_name" [i32 "arg0", i32 "arg1", i32 "arg2"],
    call "fd_pwrite" [i32 "arg0", i32 "arg1", i32 "arg2", i64 "arg3", i32 "arg4"],
    call "fd_read" [i32 "arg0", i32 "arg1", i32 "arg2", i32 "arg3"],
    call "fd_readdir" [i32 "arg0", i32 "arg1", i32 "arg2", i64 "arg3", i32 "arg4"],
    call "fd_renumber" [i32 "arg0", i32 "arg1"],
    call "fd_seek" [i32 "arg0", i64 "arg1", i32 "arg2", i32 "arg3"],
    call "fd_sync" [u32 "fd"],
    call "fd_tell" [i32 "arg0", i32 "arg1"],
    call "fd_write" [u32 "fd", u32 "iovs_addr", u32 "iovs_len", u32 "bytes_written_ptr"],
    call "path_create_directory" [i32 "arg0", i32 "arg1", i32 "arg2"],
    call "path_filestat_get" [i32 "arg0", i32 "arg1", i32 "arg2", i32 "arg3", i32 "arg4"],
    call "path_filestat_set_times"
      [i32 "arg0", i32 "arg1", i32 "arg2", i32 "arg3", i64 "arg4", i64 "arg5", i32 "arg6"],
    call "path_link"
      [i32 "arg0", i32 "arg1", i32 "arg2", i32 "arg3", i32 "arg4", i32 "arg5", i32 "arg6"],
    call "path_open"
      [i32 "arg0", i32 "arg1", i32 "arg2", i32 "arg3", i32 "arg4", i64 "arg5", i64 "arg6",
       i32 "arg7", i32 "arg8"],
    call "path_readlink" [i32 "arg0", i32 "arg1", i32 "arg2", i32 "arg3", i32 "arg4", i32 "arg5"],
    call "path_remove_directory" [i32 "arg0", i32 "arg1", i32 "arg2"],
    call "path_rename" [i32 "arg0", i32 "arg1", i32 "arg2", i32 "arg3", i32 "arg4", i32 "arg5"],
    call "path_symlink" [i32 "arg0", i32 "arg1", i32 "arg2", i32 "arg3", i32 "arg4"],
    call "path_unlink_file" [i32 "arg0", i32 "arg1", i32 "arg2"],
    call "sock_recv"
      [u32 "fd", u32 "ri_data_ptr", u32 "ri_data_len", i32 "ri_flags", u32 "ro_data_len_ptr",
       u32 "ro_flags_ptr"],
    call "sock_send"
      [u32 "fd", u32 "si_data_ptr", u32 "si_data_len", i32 "si_flags", u32 "so_data_len_ptr"],
    call "sock_shutdown" [u32 "fd", i32 "how"],
    call "sock_accept" [u32 "fd", i32 "flags", u32 "accepted_fd_ptr"]
  ]⟩

/-- The socket calls that come on top. -/
def Table.wasmEdgeSockets : Table :=
  ⟨"wasmedge_sock", [
    call "sock_accept" [u32 "fd", u32 "accepted_fd_ptr"],
    call "sock_listen" [u32 "fd", u32 "backlog"],
    call "sock_bind" [u32 "fd", u32 "addr_buf_ptr", u32 "port_num"],
    call "sock_connect" [u32 "fd", u32 "addr_ptr", u32 "port_num"],
    call "sock_open" [u8 "addr_family", u8 "sock_type", u32 "fd_ptr"],
    call "sock_recv_from"
      [u32 "fd", u32 "ri_data_ptr", u32 "ri_data_len", u32 "src_addr_ptr", i32 "ri_flags",
       u32 "src_port_ptr", u32 "ro_data_len_ptr", u32 "ro_flags_ptr"],
    call "sock_send_to"
      [u32 "fd", u32 "si_data_ptr", u32 "si_data_len", u32 "dst_addr_ptr", u32 "dst_port",
       i32 "si_flags", u32 "so_data_len_ptr"],
    call "sock_getpeeraddr"
      [u32 "fd", u32 "peeraddr_ptr", u32 "peeraddr_type_ptr", u32 "peerport_ptr"],
    call "sock_getlocaladdr"
      [u32 "fd", u32 "localaddr_ptr", u32 "localaddr_type_ptr", u32 "localport_ptr"],
    call "sock_getsockopt"
      [u32 "fd", i32 "level", i32 "name", u32 "flag_ptr", u32 "flag_size_ptr"],
    call "sock_setsockopt" [u32 "fd", i32 "level", i32 "name", u32 "flag_ptr", u32 "flag_size"]
  ]⟩

namespace Registry

/-- The registry left by a change to the empty one. -/
private def built (change : Registration Unit) : Registry :=
  match change empty with
  | .ok () r => r
  | .error _ r => r

/-- The frozen registry of the first preview. -/
def preview1 : Registry :=
  built do
    registerTable .preview1
    freeze

/-- The frozen registry of the first preview with the socket calls. -/
def wasmEdge : Registry :=
  built do
    registerTable .preview1
    registerTable .wasmEdgeSockets true
    freeze

/-- The registry that policies are checked against when none is named. -/
def default : Registry := preview1

example : preview1.size = 46 ∧ wasmEdge.size = 56 := by decide +kernel

end Registry

end CallGate.Abi
